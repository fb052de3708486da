import CPong.Lib.System
import CPong.Matchmaking

/-!
# The mutexes of the queues

Calls on the queue of clients, one after another. A call keeps the discipline if it does not
lock a mutex that is held and leaves the mutexes free where it returns.
-/

namespace CPong.Matchmaking

set_option autoImplicit false

open Lib.Pointers
open Lib.System

/-- The calls, with the answers of the allocations inside them. A client is put into the queue
in a record that its caller has just allocated. -/
inductive QueueCall where
  | enqueue (item : Ptr) (client : Client) (node : Option Ptr)
  | dequeue
  | remove (prev next : Option Ptr)
  | disconnect (client : Client)
  | matching (allocs : List RoomAlloc)
deriving DecidableEq, Repr

def QueueCall.run (s : MmServer) : QueueCall → Call MmServer
  | .enqueue item client node => do
    let _ ← malloc s.clientAt (some item)
    let clients ← tsQueueEnqueue s.clients (some item) node
    return { s with clients := clients, clientAt := Function.update s.clientAt item (some client) }
  | .dequeue => do
    let clients ← tsQueueDequeue s.clients
    return { s with clients := clients }
  | .remove prev next => do
    let clients ← tsQueueRemove s.clients prev next
    return { s with clients := clients }
  | .disconnect client => serverHandleDisconnection client s
  | .matching allocs => do
    let (_, t) ← matchmakingRound allocs s
    return t

def callStep (s : MmServer) (c : QueueCall) : Option MmServer := (c.run s).toOption

/-- The call locks no mutex that is held, and every way out of it leaves the mutexes free. -/
def Disciplined (s : MmServer) (c : QueueCall) : Prop :=
  Avoids .deadlock (fun t => t.clients.mutex = false ∧ t.rooms.mutex = false) (c.run s)

/-- The environment has an answer to every allocation of the call: `NULL`, or memory that is
free. -/
def Answered (s : MmServer) (c : QueueCall) : Prop := Avoids .noAnswer (fun _ => True) (c.run s)

instance (s : MmServer) (c : QueueCall) : Decidable (Disciplined s c) :=
  inferInstanceAs (Decidable (Avoids _ _ _))

instance (s : MmServer) (c : QueueCall) : Decidable (Answered s c) :=
  inferInstanceAs (Decidable (Avoids _ _ _))

/-- The call is no `ts_queue_remove` that comes to its end, and no room of it lacks memory. -/
def Balanced (s : MmServer) : QueueCall → Prop
  | .remove prev next => s.clients.removable prev next = false
  | .matching allocs => roomMallocFails allocs s.clients.size = false
  | _ => True

/-- The queues as the calls find them, the mutexes free. -/
structure QueuesFree (s : MmServer) : Prop where
  holding : ∃ rooms waiting, Holding s rooms waiting ∧ (rooms.flatMap Prod.snd ++ waiting).Nodup
  mutex : s.clients.mutex = false
  roomsMutex : s.rooms.mutex = false

section Calls
variable {s t : MmServer} {c : QueueCall}

theorem QueuesFree.new : QueuesFree mmServerNew := by
  refine ⟨⟨[], [], ⟨.new, .new, ?_, ?_⟩, List.nodup_nil⟩, rfl, rfl⟩
  · intro x hx
    cases hx
  · intro p hp
    cases hp

/-- What a call comes to: it leaves the queues free, it stops elsewhere, or it breaks the
discipline. -/
inductive CallOutcome (s : MmServer) (c : QueueCall) : Call MmServer → Prop where
  | returned {t : MmServer} (hbalanced : Balanced s c) (hfree : QueuesFree t) : CallOutcome s c (.ok t)
  | crashed (hbalanced : Balanced s c) : CallOutcome s c (.error .segfault)
  | unanswered : CallOutcome s c (.error .noAnswer)
  | blocked (hnot : ¬ Balanced s c) : CallOutcome s c (.error .deadlock)
  | leftHeld {t : MmServer} (hnot : ¬ Balanced s c) (hheld : t.clients.mutex = true) :
      CallOutcome s c (.ok t)

theorem QueuesFree.enqueue (h : QueuesFree s) (item : Ptr) (client : Client) (node : Option Ptr) :
    CallOutcome s (.enqueue item client node) (QueueCall.run s (.enqueue item client node)) := by
  obtain ⟨⟨rooms, waiting, hholding, hnodup⟩, hfree, hrooms⟩ := h
  rw [QueueCall.run]
  cases hnew : s.clientAt item with
  | some other =>
    have hmalloc : malloc s.clientAt (some item) = .error .noAnswer := by simp [malloc, hnew]
    rw [hmalloc]
    exact .unanswered
  | none =>
    rw [malloc_eq hnew]
    simp only [ok_bind, tsQueueEnqueue, TsQueue.lock_free hfree]
    rcases (hholding.queue.withMutex true).enqueue item node with
      ⟨q, henqueue, -, hq, -⟩ | ⟨-, henqueue⟩ | henqueue
    · rw [henqueue]
      refine .returned trivial ⟨⟨rooms, waiting ++ [item],
        ⟨hq.withMutex false, hholding.roomQueue, hholding.placed, ?_⟩, ?_⟩, rfl, hrooms⟩
      · intro a ha
        rw [← List.append_assoc, List.mem_append] at ha
        change (Function.update s.clientAt item (some client) a).isSome
        by_cases hap : a = item
        · rw [hap, Function.update_self]
          rfl
        · rw [Function.update_of_ne hap]
          exact hholding.live a (ha.resolve_right (mt List.mem_singleton.mp hap))
      · rw [← List.append_assoc, List.nodup_append_comm]
        refine List.nodup_cons.mpr ⟨?_, hnodup⟩
        intro hitem
        have hlive := hholding.live item hitem
        rw [hnew] at hlive
        cases hlive
    · rw [henqueue]
      exact .crashed trivial
    · rw [henqueue]
      exact .unanswered

theorem QueuesFree.dequeue (h : QueuesFree s) :
    CallOutcome s .dequeue (QueueCall.run s .dequeue) := by
  obtain ⟨⟨rooms, waiting, hholding, hnodup⟩, hfree, hrooms⟩ := h
  rw [QueueCall.run]
  rw [tsQueueDequeue, TsQueue.lock_free hfree, ok_bind]
  have hlocked := hholding.queue.withMutex true
  cases waiting with
  | nil =>
    obtain ⟨cells, hcells, hdata⟩ := hlocked
    obtain rfl : cells = [] := by simpa using hdata
    have hempty : tsQueueDequeueNolock { s.clients with mutex := true } =
        .ok { s.clients with mutex := true } := if_pos (hcells.isEmpty.mpr rfl)
    rw [hempty]
    exact .returned trivial ⟨⟨rooms, [], hholding.withMutex false, hnodup⟩, rfl, hrooms⟩
  | cons x waiting =>
    obtain ⟨node, q, -, -, hdequeue, hq, -⟩ := hlocked.dequeue
    rw [hdequeue]
    refine .returned trivial ⟨⟨rooms, waiting,
      ⟨hq.withMutex false, hholding.roomQueue, hholding.placed, ?_⟩, ?_⟩, rfl, hrooms⟩
    · intro p hp
      apply hholding.live
      simp only [List.mem_append, List.mem_cons] at hp ⊢
      tauto
    · rw [List.nodup_middle] at hnodup
      exact hnodup.of_cons

/-- `ts_queue_remove` does not come back. -/
theorem QueuesFree.remove (h : QueuesFree s) (prev next : Option Ptr) :
    CallOutcome s (.remove prev next) (QueueCall.run s (.remove prev next)) := by
  rw [QueueCall.run]
  rw [tsQueueRemove, TsQueue.lock_free h.mutex, ok_bind]
  rcases tsQueueRemoveNolock_removable { s.clients with mutex := true } prev next with
    ⟨hremovable, q, hremove, hmutex⟩ | ⟨hremovable, hremove⟩
  · rw [hremove, ok_bind, TsQueue.lock, hmutex]
    refine .blocked ?_
    intro hno
    exact Bool.noConfusion (hremovable.symm.trans hno)
  · rw [hremove]
    exact .crashed hremovable

theorem QueuesFree.disconnect (h : QueuesFree s) (client : Client) :
    CallOutcome s (.disconnect client) (QueueCall.run s (.disconnect client)) := by
  obtain ⟨⟨rooms, waiting, hholding, hnodup⟩, hfree, hrooms⟩ := h
  have hout := serverHandleDisconnection_outcome hholding hfree client
  change CallOutcome s _ (serverHandleDisconnection client s)
  generalize serverHandleDisconnection client s = call at hout
  cases hout with
  | unknown hothers =>
    exact .returned trivial ⟨⟨rooms, waiting, hholding, hnodup⟩, hfree, hrooms⟩
  | @removed xs ys x c q hsplit hx hid hqueue hmutex =>
    subst hsplit
    rw [← List.append_assoc, List.nodup_middle, List.nodup_cons, List.append_assoc] at hnodup
    refine .returned trivial ⟨⟨rooms, xs ++ ys,
      ⟨hqueue, hholding.roomQueue, hholding.placed, ?_⟩, hnodup.2⟩, hmutex, hrooms⟩
    intro p hp
    change (Function.update s.clientAt x none p).isSome
    have hne : p ≠ x := by
      rintro rfl
      exact hnodup.1 hp
    rw [Function.update_of_ne hne]
    apply hholding.live
    simp only [List.mem_append, List.mem_cons] at hp ⊢
    tauto

theorem QueuesFree.matching (h : QueuesFree s) (allocs : List RoomAlloc) :
    CallOutcome s (.matching allocs) (QueueCall.run s (.matching allocs)) := by
  obtain ⟨⟨rooms, waiting, hholding, hnodup⟩, hfree, hrooms⟩ := h
  have hout := matchmakingRound_outcome hholding hfree allocs
  have hsize := hholding.queue.size
  rw [QueueCall.run]
  generalize matchmakingRound allocs s = call at hout
  have hbalance : Balanced s (.matching allocs) ↔ roomMallocFails allocs waiting.length = false := by
    rw [Balanced, hsize]
  cases hout with
  | waits hfew =>
    refine .returned (hbalance.mpr ?_) ⟨⟨rooms, waiting, hholding, hnodup⟩, hfree, hrooms⟩
    cases allocs with
    | nil => rfl
    | cons alloc allocs =>
      rw [roomMallocFails, decide_eq_false (by omega), Bool.false_and]
  | @unlocks t made rest hfew hfails hsplit hholding' hsame =>
    refine .returned (hbalance.mpr hfails) ⟨⟨rooms ++ made, rest, hholding', ?_⟩,
      hsame.mutex.trans hfree, hsame.roomsMutex.trans hrooms⟩
    rwa [List.flatMap_append, List.append_assoc, ← hsplit]
  | @returns t made rest hfails hsplit hholding' hsame =>
    refine .leftHeld ?_ hsame.mutex
    rw [hbalance, hfails]
    decide
  | crashed hfails => exact .crashed (hbalance.mpr hfails)
  | unanswered => exact .unanswered

theorem QueuesFree.outcome (h : QueuesFree s) (c : QueueCall) : CallOutcome s c (c.run s) := by
  cases c with
  | enqueue item client node => exact h.enqueue item client node
  | dequeue => exact h.dequeue
  | remove prev next => exact h.remove prev next
  | disconnect client => exact h.disconnect client
  | matching allocs => exact h.matching allocs

theorem QueuesFree.disciplined_iff (h : QueuesFree s) (hanswered : Answered s c) :
    Disciplined s c ↔ Balanced s c := by
  have hout := h.outcome c
  unfold Answered at hanswered
  unfold Disciplined
  generalize c.run s = call at hout hanswered
  cases hout with
  | returned hbalanced hfree => simp [Avoids, hbalanced, hfree.mutex, hfree.roomsMutex]
  | crashed hbalanced => simp [Avoids, hbalanced]
  | unanswered => exact absurd rfl hanswered
  | blocked hnot => simp [Avoids, hnot]
  | leftHeld hnot hheld => simp [Avoids, hnot, hheld]

theorem QueuesFree.next (h : QueuesFree s) (hbalanced : Balanced s c)
    (hst : callStep s c = some t) : QueuesFree t := by
  have hout := h.outcome c
  unfold callStep at hst
  generalize c.run s = call at hout hst
  cases hout with
  | returned _ hfree =>
    cases hst
    exact hfree
  | crashed _ => cases hst
  | unanswered => cases hst
  | blocked hnot => cases hst
  | leftHeld hnot hheld => exact absurd hbalanced hnot

end Calls

/-- The calls of a sequence keep the discipline exactly if none of them is a `ts_queue_remove`
that comes to its end, nor a round of the matcher that lacks memory for a room. -/
theorem lock_discipline_iff {s : MmServer} (h : QueuesFree s) {calls : List QueueCall}
    (hanswered : AllSteps callStep Answered s calls) :
    AllSteps callStep Disciplined s calls ↔ AllSteps callStep Balanced s calls := by
  induction calls generalizing s with
  | nil => exact Iff.rfl
  | cons c calls ih =>
    have hone := h.disciplined_iff hanswered.1
    constructor
    · intro hd
      have hc := hone.mp hd.1
      exact ⟨hc, fun t ht => (ih (h.next hc ht) (hanswered.2 t ht)).mp (hd.2 t ht)⟩
    · intro hb
      refine ⟨hone.mpr hb.1, ?_⟩
      exact fun t ht => (ih (h.next hb.1 ht) (hanswered.2 t ht)).mpr (hb.2 t ht)

/-- Two clients come, one goes, and the matcher finds too few. -/
def oneLeft : List QueueCall :=
  [.enqueue 100 ⟨4, 4⟩ (some 200), .enqueue 101 ⟨5, 5⟩ (some 201), .disconnect ⟨4, 4⟩, .matching [],
    .dequeue]

theorem lock_discipline_oneLeft :
    AllSteps callStep Disciplined mmServerNew oneLeft ↔
      AllSteps callStep Balanced mmServerNew oneLeft :=
  lock_discipline_iff .new (by decide)

/-- `ts_queue_remove` locks twice; a matcher without memory for a room returns with the mutex. -/
theorem lock_discipline_broken :
    ¬ AllSteps callStep Disciplined mmServerNew [.remove none none] ∧
      ¬ AllSteps callStep Disciplined mmServerNew
        [.enqueue 100 ⟨4, 4⟩ (some 200), .enqueue 101 ⟨5, 5⟩ (some 201), .matching [⟨none, none⟩]] := by
  decide

end CPong.Matchmaking
