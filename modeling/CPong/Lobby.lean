import CPong.Lib.System
import CPong.Matchmaking
import Mathlib.Data.Option.Basic

/-!
# Server worker, connection threads and matcher

The threads of the lobby take their steps in any order. A step is a critical section of the
queue's mutex, the signal of a connection thread, or a wakeup for no reason.
-/

namespace CPong.Matchmaking

set_option autoImplicit false

open Lib.Pointers
open Lib.System

inductive Matcher where
  | running
  | waiting
  | woken
  | returned
deriving DecidableEq, Repr

/-- `inHand` is the connection that `server_worker` has put into the queue and not yet given a
thread; `threads` are the connections whose thread has not executed its signal. -/
structure LobbyState where
  server : MmServer
  matcher : Matcher
  inHand : Option (Nat × Ptr)
  threads : List Nat

inductive LobbyStep where
  | accept (connfd : Int) (client node : Option Ptr)
  | spawn
  | signal (thread : Nat)
  | wakeup
  | matching (allocs : List RoomAlloc)
deriving DecidableEq, Repr

def lobbyStart : LobbyState := ⟨mmServerNew, .running, none, []⟩

/-- A signal wakes the matcher if it waits and is lost otherwise. -/
def Matcher.signalled : Matcher → Matcher
  | .waiting => .woken
  | m => m

def Matcher.after : SectionExit → Matcher
  | .waits => .waiting
  | .unlocks => .running
  | .returns => .returned

def lobbyStep (s : LobbyState) : LobbyStep → Option LobbyState
  | .accept connfd client node => do
    guard (s.inHand = none)
    let server ← (acceptClient connfd client node s.server).toOption
    return { s with server := server, inHand := client.map fun p => (s.server.accepted, p) }
  | .spawn => do
    let (thread, client) ← s.inHand
    let _ ← (announceClient client s.server).toOption
    return { s with inHand := none, threads := thread :: s.threads }
  | .signal thread => do
    guard (thread ∈ s.threads)
    return { s with matcher := s.matcher.signalled, threads := s.threads.erase thread }
  | .wakeup => do
    guard (s.matcher = .waiting)
    return { s with matcher := .woken }
  | .matching allocs => do
    guard (s.matcher = .running ∨ s.matcher = .woken)
    let (exit, server) ← (matchmakingRound allocs s.server).toOption
    return { s with server := server, matcher := Matcher.after exit }

/-- The clients that the steps accept, each with its descriptor. -/
def acceptedClients (ls : List LobbyStep) : List (Ptr × Int) :=
  ls.filterMap fun l =>
    match l with
    | .accept connfd (some client) _ => some (client, connfd)
    | _ => none

/-- The thread of a connection has not executed its signal: it waits to do so, or the worker
has yet to create it. -/
def LobbyState.Unsignalled (s : LobbyState) (thread : Nat) : Prop :=
  (∃ client, s.inHand = some (thread, client)) ∨ thread ∈ s.threads

/-- The server between two steps: the mutex is held by nobody but a matcher that has returned. -/
structure LobbyHolding (s : LobbyState) (rooms : List (Ptr × List Ptr)) (waiting : List Ptr) :
    Prop where
  holding : Holding s.server rooms waiting
  mutex : s.server.clients.mutex = true ↔ s.matcher = .returned

/-- What a step does to the rooms and to the waiting clients, by the clients it accepts. -/
inductive ServerMove (s : MmServer) (rooms : List (Ptr × List Ptr)) (waiting : List Ptr) :
    List (Ptr × Int) → MmServer → List (Ptr × List Ptr) → List Ptr → Prop where
  | idle : ServerMove s rooms waiting [] s rooms waiting
  | accepted {p : Ptr} {connfd : Int} {t : MmServer} (hnew : s.clientAt p = none)
      (hfd : s.fds connfd = none)
      (hclientAt : t.clientAt = Function.update s.clientAt p (some ⟨connfd, connfd⟩))
      (hfds : t.fds = Function.update s.fds connfd (some s.accepted))
      (haccepted : t.accepted = s.accepted + 1) :
      ServerMove s rooms waiting [(p, connfd)] t rooms (waiting ++ [p])
  | matched {made : List (Ptr × List Ptr)} {rest : List Ptr} {t : MmServer}
      (hsplit : waiting = made.flatMap Prod.snd ++ rest) (hclientAt : t.clientAt = s.clientAt)
      (hfds : t.fds = s.fds) (haccepted : t.accepted = s.accepted) :
      ServerMove s rooms waiting [] t (rooms ++ made) rest

section Move
variable {s t : LobbyState} {rooms : List (Ptr × List Ptr)} {waiting : List Ptr} {thread : Nat}
  {client : Ptr}

theorem LobbyHolding.start : LobbyHolding lobbyStart [] [] := by
  refine ⟨⟨.new, .new, ?_, ?_⟩, by decide⟩
  · intro x hx
    cases hx
  · intro p hp
    cases hp

theorem LobbyHolding.free (h : LobbyHolding s rooms waiting) (hrun : s.matcher ≠ .returned) :
    s.server.clients.mutex = false := by
  rw [← Bool.not_eq_true, h.mutex]
  exact hrun

/-- Nobody is accepted while the mutex is held. -/
theorem acceptClient_held {server : MmServer} (hheld : server.clients.mutex = true) (connfd : Int)
    (client node : Option Ptr) : (acceptClient connfd client node server).toOption = none := by
  unfold acceptClient
  split
  · rfl
  · cases client with
    | none => rfl
    | some p =>
      unfold malloc
      dsimp only
      split
      · rfl
      · simp [tsQueueEnqueue, TsQueue.lock, hheld, Lib.Pointers.lock]
        rfl

theorem LobbyHolding.accept (h : LobbyHolding s rooms waiting) {connfd : Int}
    {client node : Option Ptr} (hst : lobbyStep s (.accept connfd client node) = some t) :
    ∃ p, client = some p ∧ t.inHand = some (s.server.accepted, p) ∧
      ServerMove s.server rooms waiting [(p, connfd)] t.server rooms (waiting ++ [p]) ∧
      LobbyHolding t rooms (waiting ++ [p]) := by
  simp only [lobbyStep, Option.bind_eq_bind, Option.bind_eq_some_iff, Option.guard_eq_some',
    exists_const, Option.pure_def, Option.some.injEq] at hst
  obtain ⟨hidle, server, hok, rfl⟩ := hst
  have hrun : s.matcher ≠ .returned := by
    intro hret
    rw [acceptClient_held (h.mutex.mpr hret)] at hok
    cases hok
  have hout := acceptClient_outcome h.holding (h.free hrun) connfd client node
  generalize acceptClient connfd client node s.server = call at hout hok
  cases hout with
  | crashed => cases hok
  | unanswered => cases hok
  | @accepted p t' hclient hnew hfd hholding hclientAt hfds hclosed haccepted hmutex hroomsMutex =>
    cases hok
    subst hclient
    refine ⟨p, rfl, rfl, .accepted hnew hfd hclientAt hfds haccepted, hholding, ?_⟩
    rw [hmutex]
    exact ⟨fun hheld => (nomatch hheld), fun hret => absurd hret hrun⟩

/-- The matcher takes its clients from the head of the queue, and waits only where too few
are left. -/
theorem LobbyHolding.matching (h : LobbyHolding s rooms waiting) {allocs : List RoomAlloc}
    (hst : lobbyStep s (.matching allocs) = some t) :
    ∃ made rest, ServerMove s.server rooms waiting [] t.server (rooms ++ made) rest ∧
      LobbyHolding t (rooms ++ made) rest ∧ (t.matcher = .waiting → rest.length < roomSize) ∧
      t.inHand = s.inHand ∧ t.server.clientAt = s.server.clientAt := by
  simp only [lobbyStep, Option.bind_eq_bind, Option.bind_eq_some_iff, Option.guard_eq_some',
    exists_const, Option.pure_def, Option.some.injEq] at hst
  obtain ⟨hactive, ⟨exit, server⟩, hok, rfl⟩ := hst
  have hfree : s.server.clients.mutex = false := by
    apply h.free
    rcases hactive with hm | hm <;> simp [hm]
  have hout := matchmakingRound_outcome h.holding hfree allocs
  generalize matchmakingRound allocs s.server = call at hout hok
  cases hout with
  | waits hfew =>
    cases hok
    refine ⟨[], waiting, .matched rfl rfl rfl rfl, ⟨?_, ?_⟩, fun _ => hfew, rfl, rfl⟩
    · rw [List.append_nil]
      exact h.holding
    · simp [hfree, Matcher.after]
  | @unlocks server made rest hfew hfails hsplit hholding hsame =>
    cases hok
    refine ⟨made, rest, .matched hsplit hsame.clientAt hsame.fds hsame.accepted, ⟨hholding, ?_⟩,
      fun hno => (nomatch hno), rfl, hsame.clientAt⟩
    simp [hsame.mutex, hfree, Matcher.after]
  | @returns server made rest hfails hsplit hholding hsame =>
    cases hok
    refine ⟨made, rest, .matched hsplit hsame.clientAt hsame.fds hsame.accepted, ⟨hholding, ?_⟩,
      fun hno => (nomatch hno), rfl, hsame.clientAt⟩
    rw [hsame.mutex]
    exact ⟨fun _ => rfl, fun _ => rfl⟩
  | crashed hfails => cases hok
  | unanswered => cases hok

theorem lobbyStep_spawn_eq (hst : lobbyStep s .spawn = some t) :
    ∃ thread client, s.inHand = some (thread, client) ∧
      t = { s with inHand := none, threads := thread :: s.threads } := by
  simp only [lobbyStep, Option.bind_eq_bind, Option.bind_eq_some_iff, Option.pure_def,
    Option.some.injEq] at hst
  obtain ⟨⟨thread, client⟩, hhand, copy, -, rfl⟩ := hst
  exact ⟨thread, client, hhand, rfl⟩

theorem lobbyStep_signal_eq (hst : lobbyStep s (.signal thread) = some t) :
    thread ∈ s.threads ∧
      t = { s with matcher := s.matcher.signalled, threads := s.threads.erase thread } := by
  simp only [lobbyStep, Option.bind_eq_bind, Option.bind_eq_some_iff, Option.guard_eq_some',
    exists_const, Option.pure_def, Option.some.injEq] at hst
  exact ⟨hst.1, hst.2.symm⟩

theorem lobbyStep_wakeup_eq (hst : lobbyStep s .wakeup = some t) :
    s.matcher = .waiting ∧ t = { s with matcher := .woken } := by
  simp only [lobbyStep, Option.bind_eq_bind, Option.bind_eq_some_iff, Option.guard_eq_some',
    exists_const, Option.pure_def, Option.some.injEq] at hst
  exact ⟨hst.1, hst.2.symm⟩

theorem Matcher.signalled_eq_returned {m : Matcher} : m.signalled = .returned ↔ m = .returned := by
  cases m <;> simp [Matcher.signalled]

theorem Matcher.signalled_ne_waiting (m : Matcher) : m.signalled ≠ .waiting := by
  cases m <;> simp [Matcher.signalled]

/-- One step takes clients over from the front of the waiting ones, or puts one behind them. -/
theorem LobbyHolding.next (h : LobbyHolding s rooms waiting) {l : LobbyStep}
    (hst : lobbyStep s l = some t) :
    ∃ rooms' waiting',
      ServerMove s.server rooms waiting (acceptedClients [l]) t.server rooms' waiting' ∧
      LobbyHolding t rooms' waiting' := by
  cases l with
  | accept connfd client node =>
    obtain ⟨p, rfl, -, hmove, hnext⟩ := h.accept hst
    exact ⟨rooms, waiting ++ [p], hmove, hnext⟩
  | spawn =>
    obtain ⟨thread, client, -, rfl⟩ := lobbyStep_spawn_eq hst
    exact ⟨rooms, waiting, .idle, h.holding, h.mutex⟩
  | signal thread =>
    obtain ⟨-, rfl⟩ := lobbyStep_signal_eq hst
    exact ⟨rooms, waiting, .idle, h.holding, h.mutex.trans Matcher.signalled_eq_returned.symm⟩
  | wakeup =>
    obtain ⟨hwaits, rfl⟩ := lobbyStep_wakeup_eq hst
    refine ⟨rooms, waiting, .idle, h.holding, ?_⟩
    rw [h.mutex, hwaits]
    simp
  | matching allocs =>
    obtain ⟨made, rest, hmove, hnext, -, -, -⟩ := h.matching hst
    exact ⟨rooms ++ made, rest, hmove, hnext⟩

end Move

/-- What holds between two steps, with the clients accepted so far. -/
structure LobbyInv (s : LobbyState) (accepted : List (Ptr × Int))
    (rooms : List (Ptr × List Ptr)) (waiting : List Ptr) : Prop
    extends LobbyHolding s rooms waiting where
  conserved : rooms.flatMap Prod.snd ++ waiting = accepted.map Prod.fst
  nodup : (accepted.map Prod.fst).Nodup
  records : ∀ a ∈ accepted, s.server.clientAt a.1 = some ⟨a.2, a.2⟩

section Run
variable {s t : LobbyState} {accepted : List (Ptr × Int)} {rooms : List (Ptr × List Ptr)}
  {waiting : List Ptr} {thread : Nat} {client : Ptr}

theorem LobbyInv.start : LobbyInv lobbyStart [] [] [] := by
  refine ⟨.start, rfl, List.nodup_nil, ?_⟩
  intro a ha
  cases ha

theorem LobbyInv.next (h : LobbyInv s accepted rooms waiting) {l : LobbyStep}
    (hst : lobbyStep s l = some t) :
    ∃ rooms' waiting', LobbyInv t (accepted ++ acceptedClients [l]) rooms' waiting' := by
  obtain ⟨rooms', waiting', hmove, hnext⟩ := h.toLobbyHolding.next hst
  refine ⟨rooms', waiting', ?_⟩
  suffices hall : rooms'.flatMap Prod.snd ++ waiting' = (accepted ++ acceptedClients [l]).map Prod.fst ∧
      ((accepted ++ acceptedClients [l]).map Prod.fst).Nodup ∧
      ∀ a ∈ accepted ++ acceptedClients [l], t.server.clientAt a.1 = some ⟨a.2, a.2⟩ from
    ⟨hnext, hall.1, hall.2.1, hall.2.2⟩
  generalize acceptedClients [l] = new at hmove
  generalize t.server = server at hmove
  cases hmove with
  | idle =>
    rw [List.append_nil]
    exact ⟨h.conserved, h.nodup, h.records⟩
  | @accepted p connfd server hnew hfd hclientAt hfds haccepted =>
    have hp : p ∉ accepted.map Prod.fst := by
      intro hp
      rw [← h.conserved] at hp
      have hlive := h.holding.live p hp
      rw [hnew] at hlive
      cases hlive
    refine ⟨?_, ?_, ?_⟩
    · rw [← List.append_assoc, h.conserved, List.map_append]
      rfl
    · rw [List.map_append, List.nodup_append_comm]
      exact List.nodup_cons.mpr ⟨hp, h.nodup⟩
    · intro a ha
      rw [hclientAt]
      rcases List.mem_append.mp ha with ha | ha
      · have hne : a.1 ≠ p := fun heq => hp (heq ▸ List.mem_map_of_mem ha)
        rw [Function.update_of_ne hne, h.records a ha]
      · obtain rfl := List.mem_singleton.mp ha
        exact Function.update_self p _ _
  | @matched made rest server hsplit hclientAt hfds haccepted =>
    rw [List.append_nil, hclientAt]
    refine ⟨?_, h.nodup, h.records⟩
    rw [← h.conserved, hsplit, List.flatMap_append, List.append_assoc]

theorem LobbyInv.run (h : LobbyInv s accepted rooms waiting) {ls : List LobbyStep}
    (hrun : run lobbyStep s ls = some t) :
    ∃ rooms' waiting', LobbyInv t (accepted ++ acceptedClients ls) rooms' waiting' := by
  induction ls generalizing s accepted rooms waiting with
  | nil =>
    cases hrun
    exact ⟨rooms, waiting, by rwa [acceptedClients, List.filterMap_nil, List.append_nil]⟩
  | cons l ls ih =>
    obtain ⟨m, hm, hrest⟩ := run_cons_eq_some.mp hrun
    obtain ⟨rooms₁, waiting₁, hinv₁⟩ := h.next hm
    have hcons : acceptedClients (l :: ls) = acceptedClients [l] ++ acceptedClients ls := by
      rw [← List.singleton_append, acceptedClients, List.filterMap_append]
      rfl
    rw [hcons, ← List.append_assoc]
    exact ih hinv₁ hrest

end Run

/-- Matchmaking loses nobody and duplicates nobody: the clients of the rooms, in the order of
the rooms, and then those in the queue are the accepted ones in the order of their coming. -/
theorem matchmaking_conserves {ls : List LobbyStep} {s : LobbyState}
    (h : run lobbyStep lobbyStart ls = some s) :
    ∃ (rooms : List (Ptr × List Ptr)) (waiting : List Ptr),
      s.server.rooms.items = some (rooms.map fun x => some x.1) ∧
      (∀ x ∈ rooms, x.2.length = roomSize ∧
        ∃ room, s.server.roomAt x.1 = some room ∧ room.clients = x.2.map some) ∧
      s.server.clients.items = some (waiting.map some) ∧
      s.server.clients.size = waiting.length ∧
      rooms.flatMap Prod.snd ++ waiting = (acceptedClients ls).map Prod.fst ∧
      ((acceptedClients ls).map Prod.fst).Nodup ∧
      ∀ a ∈ acceptedClients ls, s.server.clientAt a.1 = some ⟨a.2, a.2⟩ := by
  obtain ⟨rooms, waiting, hinv⟩ := LobbyInv.start.run h
  refine ⟨rooms, waiting, ?_, hinv.holding.placed, hinv.holding.queue.items,
    hinv.holding.queue.size, hinv.conserved, hinv.nodup, hinv.records⟩
  have hrooms := hinv.holding.roomQueue.items
  rwa [List.map_map] at hrooms

/-- Three connections; the first two are matched. -/
def firstMatching : List LobbyStep :=
  [.matching [], .accept 4 (some 100) (some 200), .spawn, .accept 5 (some 101) (some 201), .spawn,
    .signal 1, .matching [⟨some 300, some 400⟩], .accept 6 (some 102) (some 200)]

def firstMatched : LobbyState := (run lobbyStep lobbyStart firstMatching).get (by decide)

theorem matchmaking_conserves_firstMatching :
    ∃ (rooms : List (Ptr × List Ptr)) (waiting : List Ptr),
      firstMatched.server.rooms.items = some (rooms.map fun x => some x.1) ∧
      (∀ x ∈ rooms, x.2.length = roomSize ∧
        ∃ room, firstMatched.server.roomAt x.1 = some room ∧ room.clients = x.2.map some) ∧
      firstMatched.server.clients.items = some (waiting.map some) ∧
      firstMatched.server.clients.size = waiting.length ∧
      rooms.flatMap Prod.snd ++ waiting = (acceptedClients firstMatching).map Prod.fst ∧
      ((acceptedClients firstMatching).map Prod.fst).Nodup ∧
      ∀ a ∈ acceptedClients firstMatching, firstMatched.server.clientAt a.1 = some ⟨a.2, a.2⟩ :=
  have h : run lobbyStep lobbyStart firstMatching = some firstMatched := (Option.some_get _).symm
  matchmaking_conserves h

/-- While the matcher sleeps, too few clients wait or a signal is still to come. -/
structure Wakeful (s : LobbyState) (rooms : List (Ptr × List Ptr)) (waiting : List Ptr) : Prop
    extends LobbyHolding s rooms waiting where
  inHand : ∀ thread client, s.inHand = some (thread, client) → (s.server.clientAt client).isSome
  wake : s.matcher = .waiting → roomSize ≤ waiting.length → ∃ thread, s.Unsignalled thread

section Wake
variable {s t : LobbyState} {rooms : List (Ptr × List Ptr)} {waiting : List Ptr} {thread : Nat}
  {client : Ptr}

theorem Wakeful.start : Wakeful lobbyStart [] [] := by
  refine ⟨.start, ?_, ?_⟩
  · intro thread client h
    cases h
  · intro h
    cases h

theorem Wakeful.next (h : Wakeful s rooms waiting) {l : LobbyStep}
    (hst : lobbyStep s l = some t) : ∃ rooms' waiting', Wakeful t rooms' waiting' := by
  cases l with
  | accept connfd client node =>
    obtain ⟨p, rfl, hhand, hmove, hnext⟩ := h.toLobbyHolding.accept hst
    refine ⟨rooms, waiting ++ [p], hnext, ?_, fun _ _ => ⟨s.server.accepted, Or.inl ⟨p, hhand⟩⟩⟩
    intro thread q hq
    rw [hhand, Option.some.injEq, Prod.mk.injEq] at hq
    exact hnext.holding.live q (by simp [← hq.2])
  | spawn =>
    obtain ⟨thread, client, -, rfl⟩ := lobbyStep_spawn_eq hst
    refine ⟨rooms, waiting, ⟨h.holding, h.mutex⟩, fun _ _ hno => (nomatch hno), ?_⟩
    exact fun _ _ => ⟨thread, Or.inr List.mem_cons_self⟩
  | signal thread =>
    obtain ⟨-, rfl⟩ := lobbyStep_signal_eq hst
    refine ⟨rooms, waiting, ⟨h.holding, h.mutex.trans Matcher.signalled_eq_returned.symm⟩,
      h.inHand, ?_⟩
    exact fun hwaits => absurd hwaits s.matcher.signalled_ne_waiting
  | wakeup =>
    obtain ⟨hwaits, rfl⟩ := lobbyStep_wakeup_eq hst
    refine ⟨rooms, waiting, ⟨h.holding, ?_⟩, h.inHand, fun hno => (nomatch hno)⟩
    rw [h.mutex, hwaits]
    simp
  | matching allocs =>
    obtain ⟨made, rest, -, hnext, hfew, hhand, hclientAt⟩ := h.toLobbyHolding.matching hst
    refine ⟨rooms ++ made, rest, hnext, ?_, ?_⟩
    · rw [hhand, hclientAt]
      exact h.inHand
    · exact fun hwaits henough => absurd (hfew hwaits) (Nat.not_lt.mpr henough)

theorem Wakeful.run (h : Wakeful s rooms waiting) {ls : List LobbyStep}
    (hrun : run lobbyStep s ls = some t) : ∃ rooms' waiting', Wakeful t rooms' waiting' :=
  invariant (I := fun s => ∃ rooms waiting, Wakeful s rooms waiting)
    (fun _ _ _ ⟨_, _, hs⟩ hst => hs.next hst) ⟨rooms, waiting, h⟩ hrun

theorem lobbyStep_signal (hthread : thread ∈ s.threads) :
    lobbyStep s (.signal thread) =
      some { s with matcher := s.matcher.signalled, threads := s.threads.erase thread } := by
  simp [lobbyStep, hthread]

theorem Wakeful.lobbyStep_spawn (h : Wakeful s rooms waiting) (hrun : s.matcher ≠ .returned)
    (hhand : s.inHand = some (thread, client)) :
    lobbyStep s .spawn = some { s with inHand := none, threads := thread :: s.threads } := by
  obtain ⟨copy, hlive⟩ := Option.isSome_iff_exists.mp (h.inHand thread client hhand)
  simp [lobbyStep, hhand, announceClient_holding h.holding (h.free hrun) hlive, Except.toOption]

end Wake

/-- No wakeup is lost: while the matcher sleeps and enough clients wait, a connection thread
has yet to signal, and its signal wakes the matcher. -/
theorem no_lost_wakeup {ls : List LobbyStep} {s : LobbyState}
    (h : run lobbyStep lobbyStart ls = some s) (hwaits : s.matcher = .waiting)
    (henough : roomSize ≤ s.server.clients.size) :
    ∃ thread, s.Unsignalled thread ∧
      ∃ t, (run lobbyStep s [.signal thread] = some t ∨
        run lobbyStep s [.spawn, .signal thread] = some t) ∧ t.matcher = .woken := by
  obtain ⟨rooms, waiting, hinv⟩ := Wakeful.start.run h
  rw [hinv.holding.queue.size] at henough
  obtain ⟨thread, hthread⟩ := hinv.wake hwaits henough
  have hwoken : s.matcher.signalled = .woken := by rw [hwaits, Matcher.signalled]
  refine ⟨thread, hthread, ?_⟩
  rcases hthread with ⟨client, hhand⟩ | hthread
  · have hspawn := hinv.lobbyStep_spawn (by simp [hwaits]) hhand
    have hthread : thread ∈ ({ s with
        inHand := none, threads := thread :: s.threads } : LobbyState).threads :=
      List.mem_cons_self
    have hsignal := lobbyStep_signal hthread
    exact ⟨_, Or.inr (run_cons_eq_some.mpr ⟨_, hspawn, run_cons_eq_some.mpr ⟨_, hsignal, rfl⟩⟩),
      hwoken⟩
  · exact ⟨_, Or.inl (run_cons_eq_some.mpr ⟨_, lobbyStep_signal hthread, rfl⟩), hwoken⟩

/-- The matcher sleeps, the second client is in the queue and has no thread yet. -/
def secondComing : List LobbyStep :=
  [.matching [], .accept 4 (some 100) (some 200), .spawn, .signal 0, .matching [],
    .accept 5 (some 101) (some 201)]

def secondCome : LobbyState := (run lobbyStep lobbyStart secondComing).get (by decide)

theorem no_lost_wakeup_secondCome :
    ∃ thread, secondCome.Unsignalled thread ∧
      ∃ t, (run lobbyStep secondCome [.signal thread] = some t ∨
        run lobbyStep secondCome [.spawn, .signal thread] = some t) ∧ t.matcher = .woken :=
  have h : run lobbyStep lobbyStart secondComing = some secondCome := (Option.some_get _).symm
  no_lost_wakeup h (by decide) (by decide)

end CPong.Matchmaking
