import CPong.Lib.LockProgress
import CPong.Lib.SerialOrder
import CPong.QueueRuns

/-!
# The lock of the queue

`ts_queue_enqueue` and `ts_queue_dequeue` in any number of threads, one read or write of the
queue or of a node at a time.
-/

namespace CPong

set_option autoImplicit false

open Lib
open Lib.Locks
open Lib.Pointers
open Lib.Chain

/-- What a thread has in variables of its own. `returned` is set where
`__ts_queue_dequeue_nolock` or `__ts_queue_remove_nolock` finds the queue empty. -/
structure QueueVars where
  newNode : Option Ptr
  prev : Option Ptr
  next : Option Ptr
  head : Option Ptr
  node : Option Ptr
  size : Nat
  empty : Bool
  returned : Bool

def QueueVars.zero : QueueVars := ⟨none, none, none, none, none, 0, false, false⟩

abbrev QueueStep := QueueVars → TsQueue → Call (QueueVars × TsQueue)

def readQueue (f : QueueVars → TsQueue → QueueVars) : QueueStep := fun v q => .ok (f v q, q)

def writeQueue (f : QueueVars → TsQueue → TsQueue) : QueueStep := fun v q => .ok (v, f v q)

def readNode (p : QueueVars → Option Ptr)
    (f : QueueVars → Cell (Option Ptr) → QueueVars) : QueueStep := fun v q => do
  let c ← deref q.nodes (p v)
  return (f v c, q)

def writeNode (p : QueueVars → Option Ptr)
    (f : QueueVars → Cell (Option Ptr) → Cell (Option Ptr)) : QueueStep := fun v q => do
  let q ← q.assign (p v) (f v)
  return (v, q)

/-- A step of a branch that is taken where `cond` holds. -/
def onlyIf (cond : QueueVars → Bool) (f : QueueStep) : QueueStep := fun v q =>
  if cond v then f v q else .ok (v, q)

/-- `__ts_queue_add(q, prev, next, new_node)`; each step is one of those branches that have it. -/
def addSteps : List QueueStep :=
  [readQueue fun v q => { v with size := q.size },
    writeQueue fun v q => { q with size := v.size + 1 },
    readQueue fun v q => { v with empty := tsQueueIsEmpty q },
    onlyIf (fun v => v.empty || v.prev.isNone) (writeQueue fun v q => { q with head := v.newNode }),
    onlyIf (fun v => v.empty || v.prev.isSome && v.next.isNone)
      (writeQueue fun v q => { q with tail := v.newNode }),
    onlyIf (fun v => !v.empty && v.prev.isSome)
      (writeNode QueueVars.prev fun v c => { c with next := v.newNode }),
    onlyIf (fun v => !v.empty && (v.prev.isNone || v.next.isSome))
      (writeNode QueueVars.next fun v c => { c with prev := v.newNode }),
    onlyIf (fun v => !v.empty && v.prev.isSome)
      (writeNode QueueVars.newNode fun v c => { c with prev := v.prev }),
    onlyIf (fun v => !v.empty && (v.prev.isNone || v.next.isSome))
      (writeNode QueueVars.newNode fun v c => { c with next := v.next })]

def enqueueSteps (item answer : Option Ptr) : List QueueStep :=
  [fun v q => do
      let (newNode, nodes) ← tsQueueNodeNew q.nodes answer
      return ({ v with newNode := some newNode }, { q with nodes := nodes }),
    writeNode QueueVars.newNode fun _ c => { c with data := item },
    readQueue fun v q => { v with prev := q.tail, next := none }] ++ addSteps

def QueueVars.goesOn (v : QueueVars) : Bool := !v.returned

/-- `__ts_queue_remove_nolock(q, prev, next)` -/
def removeSteps : List QueueStep :=
  (readQueue fun v q => { v with returned := tsQueueIsEmpty q }) ::
    [readQueue fun v q =>
        { v with node := if v.prev.isNone && v.next.isNone then q.tail else none },
      readQueue fun v q => { v with size := q.size },
      writeQueue fun v q => { q with size := v.size - 1 },
      onlyIf (fun v => v.prev.isNone) (writeQueue fun v q => { q with head := v.next }),
      onlyIf (fun v => v.next.isNone) (writeQueue fun v q => { q with tail := v.prev }),
      onlyIf (fun v => v.prev.isSome)
        (readNode QueueVars.prev fun v c => { v with node := c.next }),
      onlyIf (fun v => v.prev.isSome)
        (writeNode QueueVars.prev fun v c => { c with next := v.next }),
      onlyIf (fun v => v.next.isSome)
        (readNode QueueVars.next fun v c => { v with node := c.prev }),
      onlyIf (fun v => v.next.isSome)
        (writeNode QueueVars.next fun v c => { c with prev := v.prev }),
      readNode QueueVars.node fun v _ => v,
      fun v q => do
        let nodes ← free q.nodes v.node
        return (v, { q with nodes := nodes })].map (onlyIf QueueVars.goesOn)

def dequeueSteps : List QueueStep :=
  (readQueue fun v q => { v with returned := tsQueueIsEmpty q }) ::
    ([readQueue fun v q => { v with head := q.head },
      readNode QueueVars.head fun v c => { v with prev := none, next := c.next }] ++
        removeSteps).map (onlyIf QueueVars.goesOn)

/-- A call of `ts_queue_enqueue`, with the answer that `malloc` gives it, or of
`ts_queue_dequeue`. -/
inductive TsCall where
  | enqueue (item answer : Option Ptr)
  | dequeue
deriving DecidableEq, Repr

def TsCall.steps : TsCall → List QueueStep
  | .enqueue item answer => enqueueSteps item answer
  | .dequeue => dequeueSteps

/-- What the call does once it has the lock. -/
def tsCallNolock (q : TsQueue) : TsCall → Call TsQueue
  | .enqueue item answer => tsQueueEnqueueNolock q item answer
  | .dequeue => tsQueueDequeueNolock q

def runSteps (steps : List QueueStep) (c : QueueVars × TsQueue) : Call (QueueVars × TsQueue) :=
  steps.foldlM (fun c f => f c.1 c.2) c

def queueOf (call : Call (QueueVars × TsQueue)) : Call TsQueue := do
  let c ← call
  return c.2

section Steps
variable {v : QueueVars} {q : TsQueue}

theorem runSteps_cons (f : QueueStep) (steps : List QueueStep) :
    runSteps (f :: steps) (v, q) = (f v q >>= runSteps steps) :=
  List.foldlM_cons

theorem runSteps_append (fs gs : List QueueStep) (c : QueueVars × TsQueue) :
    runSteps (fs ++ gs) c = (runSteps fs c >>= runSteps gs) :=
  List.foldlM_append

@[simp] theorem queueOf_bind {α : Type} (call : Call α) (f : α → Call (QueueVars × TsQueue)) :
    queueOf (call >>= f) = (call >>= fun a => queueOf (f a)) := by
  cases call <;> rfl

@[simp] theorem queueOf_ok (c : QueueVars × TsQueue) : queueOf (.ok c) = .ok c.2 := rfl

theorem bind_ok {α : Type} (call : Call α) : (call >>= fun a => (Except.ok a : Call α)) = call := by
  cases call <;> rfl

theorem runSteps_add {node : Ptr} (hnode : v.newNode = some node) :
    queueOf (runSteps addSteps (v, q)) = tsQueueAdd q v.prev v.next node := by
  obtain ⟨newNode, prev, next, head, node', size, empty, returned⟩ := v
  dsimp only at hnode
  subst hnode
  simp only [addSteps, runSteps, List.foldlM_cons, List.foldlM_nil, readQueue, writeQueue,
    writeNode, onlyIf, ok_bind, tsQueueAdd, tsQueueIsEmpty]
  cases q.head <;> cases prev <;> cases next <;> simp [bind_ok]

theorem runSteps_enqueue (v : QueueVars) (q : TsQueue) (item answer : Option Ptr) :
    queueOf (runSteps (enqueueSteps item answer) (v, q)) =
      tsQueueEnqueueNolock q item answer := by
  rw [enqueueSteps, List.cons_append, List.cons_append, List.cons_append, List.nil_append,
    runSteps_cons, tsQueueEnqueueNolock]
  cases hnew : tsQueueNodeNew q.nodes answer with
  | error e => rfl
  | ok made =>
    obtain ⟨newNode, nodes⟩ := made
    rw [ok_bind, ok_bind]
    simp only [pure_eq_ok, ok_bind]
    rw [runSteps_cons, writeNode, queueOf_bind, bind_assoc]
    refine bind_congr fun q' => ?_
    rw [pure_eq_ok, ok_bind]
    exact runSteps_add rfl

theorem runSteps_remove (v : QueueVars) (q : TsQueue) :
    queueOf (runSteps removeSteps (v, q)) = tsQueueRemoveNolock q v.prev v.next := by
  obtain ⟨newNode, prev, next, head, node', size, empty, returned⟩ := v
  simp only [removeSteps, runSteps, List.map_cons, List.map_nil, List.foldlM_cons, List.foldlM_nil,
    readQueue, writeQueue, readNode, writeNode, onlyIf, ok_bind, tsQueueRemoveNolock,
    tsQueueIsEmpty, QueueVars.goesOn, detachNext, detachPrev, detachEnds, tsQueueNodeDestructor]
  cases hhead : q.head <;> cases prev <;> cases next <;> simp [bind_ok, hhead]

/-- After a `return` nothing more is done. -/
theorem runSteps_returned (steps : List QueueStep) (hreturned : v.returned = true) :
    runSteps (steps.map (onlyIf QueueVars.goesOn)) (v, q) = .ok (v, q) := by
  induction steps with
  | nil => rfl
  | cons f steps ih =>
    rw [List.map_cons, runSteps_cons, onlyIf, if_neg (by simp [QueueVars.goesOn, hreturned])]
    exact ih

theorem onlyIf_onlyIf (cond : QueueVars → Bool) (f : QueueStep) :
    onlyIf cond (onlyIf cond f) = onlyIf cond f := by
  funext v q
  unfold onlyIf
  split_ifs <;> rfl

/-- A call of `__ts_queue_remove_nolock` where the caller has not returned. -/
theorem runSteps_call_remove (hgoesOn : v.returned = false) :
    runSteps (removeSteps.map (onlyIf QueueVars.goesOn)) (v, q) = runSteps removeSteps (v, q) := by
  have hidem : onlyIf QueueVars.goesOn ∘ onlyIf QueueVars.goesOn = onlyIf QueueVars.goesOn :=
    funext (onlyIf_onlyIf _)
  rw [removeSteps, List.map_cons, List.map_map, hidem, runSteps_cons, runSteps_cons, onlyIf,
    if_pos (by simp [QueueVars.goesOn, hgoesOn])]

theorem runSteps_dequeue (v : QueueVars) (q : TsQueue) :
    queueOf (runSteps dequeueSteps (v, q)) = tsQueueDequeueNolock q := by
  rw [dequeueSteps, runSteps_cons, readQueue, ok_bind, tsQueueDequeueNolock]
  cases hempty : tsQueueIsEmpty q with
  | true =>
    rw [runSteps_returned _ rfl, if_pos rfl]
    rfl
  | false =>
    rw [if_neg Bool.false_ne_true, List.map_append, runSteps_append]
    simp only [List.map_cons, List.map_nil, runSteps, List.foldlM_cons, List.foldlM_nil, onlyIf,
      QueueVars.goesOn, Bool.not_false, if_true, readQueue, readNode, ok_bind, pure_eq_ok,
      bind_assoc, queueOf_bind]
    refine bind_congr fun c => ?_
    rw [← runSteps, runSteps_call_remove rfl]
    exact runSteps_remove _ q

theorem runSteps_steps (v : QueueVars) (q : TsQueue) (call : TsCall) :
    queueOf (runSteps call.steps (v, q)) = tsCallNolock q call := by
  cases call with
  | enqueue item answer => exact runSteps_enqueue v q item answer
  | dequeue => exact runSteps_dequeue v q

end Steps

abbrev QueueLockOp := Op Unit (fun _ => Call TsQueue) QueueVars

/-- A step of a thread on the queue; after a fault nothing is done any more. -/
def onQueue (f : QueueStep) (c : QueueVars × Call TsQueue) : QueueVars × Call TsQueue :=
  match c.2 with
  | .error e => (c.1, .error e)
  | .ok q =>
    match f c.1 q with
    | .error e => (c.1, .error e)
    | .ok c' => (c'.1, .ok c'.2)

def accessOps (steps : List QueueStep) : List QueueLockOp :=
  steps.map (fun f => .access () (onQueue f)) ++ [.unlock ()]

def queueCode (T : Type) :
    Code (fun _ : Unit => Call TsQueue) (fun _ : T => QueueVars) (fun _ : T => TsCall) :=
  fun _ call _ => some (.lock () :: accessOps call.steps)

def queueStart (T : Type) :
    Machine (fun _ : Unit => Call TsQueue) (fun _ : T => QueueVars) (fun _ : T => TsCall) :=
  Locks.start (fun _ => .zero) fun _ => .ok tsQueueNew

def tsCallsNolock (q : TsQueue) (calls : List TsCall) : Call TsQueue := calls.foldlM tsCallNolock q

/-- The call as an operation on a list; `malloc` has not failed. -/
def TsCall.op : TsCall → Option QueueOp
  | .enqueue _ none => none
  | .enqueue item (some node) => some (.enqueue item node)
  | .dequeue => some .dequeue

def tsListCall (nodes : List (Ptr × Option Ptr)) (call : TsCall) :
    Option (List (Ptr × Option Ptr)) :=
  call.op.bind (listStep nodes)

def TsCall.enqueued : TsCall → Option (Ptr × Option Ptr)
  | .enqueue item (some node) => some (node, item)
  | _ => none

section
variable {q : TsQueue} {nodes nodes' : List (Ptr × Option Ptr)} {call : TsCall}
  {calls : List TsCall}

theorem releasing_accessOps (steps : List QueueStep) :
    Releasing (insert () ∅) (accessOps steps) := by
  induction steps with
  | nil => exact ⟨Set.mem_insert _ _, by simp [Releasing]⟩
  | cons f steps ih => exact ⟨Set.mem_insert _ _, ih⟩

theorem execute_accessOps (steps : List QueueStep) (v : QueueVars)
    (store : Store fun _ : Unit => Call TsQueue) :
    (execute (accessOps steps) (v, store)).2 () =
      (store () >>= fun q => queueOf (runSteps steps (v, q))) := by
  induction steps generalizing v store with
  | nil => exact (bind_ok (store ())).symm
  | cons f steps ih =>
    rw [accessOps, List.map_cons, List.cons_append, execute]
    rw [← accessOps, ih, Function.update_self]
    cases hstore : store () with
    | error e => simp [onQueue]
    | ok q =>
      rw [ok_bind, runSteps_cons]
      cases hf : f v q with
      | error e => simp [onQueue, hf, queueOf]
      | ok c => simp [onQueue, hf]

theorem tsCallNolock_eq {op : QueueOp} (hop : call.op = some op) :
    tsCallNolock q call = queueCall q op := by
  cases call with
  | enqueue item answer =>
    cases answer with
    | none => cases hop
    | some node =>
      cases hop
      rfl
  | dequeue =>
    cases hop
    rfl

theorem tsCallsNolock_refines (h : Represents q nodes)
    (hrun : System.run tsListCall nodes calls = some nodes') :
    ∃ q', tsCallsNolock q calls = .ok q' ∧ Represents q' nodes' := by
  induction calls generalizing q nodes with
  | nil =>
    cases hrun
    exact ⟨q, rfl, h⟩
  | cons call calls ih =>
    obtain ⟨m, hm, hrest⟩ := System.run_cons_eq_some.mp hrun
    obtain ⟨op, hop, hstep⟩ := Option.bind_eq_some_iff.mp hm
    obtain ⟨q₁, hcall, h₁⟩ := queueCall_refines h hstep
    obtain ⟨q', hcalls, h'⟩ := ih h₁ hrest
    refine ⟨q', ?_, h'⟩
    rw [tsCallsNolock, List.foldlM_cons, tsCallNolock_eq hop, hcall]
    exact hcalls

/-- First in, first out: each `ts_queue_dequeue` takes the first that is left, if any. -/
theorem tsListCall_fifo (hrun : System.run tsListCall nodes calls = some nodes') :
    ∃ k ≤ calls.count .dequeue, nodes' = (nodes ++ calls.filterMap TsCall.enqueued).drop k := by
  induction calls generalizing nodes with
  | nil =>
    cases hrun
    exact ⟨0, Nat.le_refl 0, (List.append_nil _).symm⟩
  | cons call calls ih =>
    obtain ⟨m, hm, hrest⟩ := System.run_cons_eq_some.mp hrun
    obtain ⟨k, hk, hnodes⟩ := ih hrest
    cases call with
    | enqueue item answer =>
      cases answer with
      | none => cases hm
      | some node =>
        obtain ⟨-, hnew⟩ := Option.ite_none_left_eq_some.mp hm
        cases hnew
        refine ⟨k, ?_, ?_⟩
        · rwa [List.count_cons_of_ne TsCall.noConfusion]
        · rw [hnodes, List.append_assoc]
          rfl
    | dequeue =>
      cases hm
      rw [List.count_cons_self]
      cases nodes with
      | nil => exact ⟨k, Nat.le_succ_of_le hk, hnodes⟩
      | cons c nodes => exact ⟨k + 1, Nat.succ_le_succ hk, hnodes⟩

end

section
variable {T : Type} [DecidableEq T]
  {s : Machine (fun _ : Unit => Call TsQueue) (fun _ : T => QueueVars) (fun _ : T => TsCall)}
  {ls : List (Action fun _ : T => TsCall)}

/-- The calls in the order in which they got the lock. -/
def lockedCalls (order : List (Σ _ : T, TsCall)) : List TsCall := order.map fun call => call.2

omit [DecidableEq T] in
theorem queueCode_disciplined (t : T) (call : TsCall) (v : QueueVars) (ops : List QueueLockOp)
    (h : queueCode T t call v = some ops) : Disciplined (fun _ => 0) ∅ ops := by
  cases h
  exact ⟨fun _ hm => absurd hm id, (releasing_accessOps call.steps).disciplined⟩

theorem serialStep_queue {a a' : Serial (fun _ : Unit => Call TsQueue) (fun _ : T => QueueVars)}
    {call : Σ _ : T, TsCall} (h : serialStep (queueCode T) a call = some a') :
    a'.store () = (a.store () >>= fun q => tsCallNolock q call.2) := by
  obtain ⟨t, call⟩ := call
  obtain ⟨ops, hops, -, -, hstore⟩ := serialStep_eq_some h
  cases hops
  rw [hstore, execute, execute_accessOps]
  simp only [runSteps_steps]

theorem serialRun_queue {a a' : Serial (fun _ : Unit => Call TsQueue) (fun _ : T => QueueVars)}
    {order : List (Σ _ : T, TsCall)}
    (h : System.run (serialStep (queueCode T)) a order = some a') :
    a'.store () = (a.store () >>= fun q => tsCallsNolock q (lockedCalls order)) := by
  induction order generalizing a with
  | nil =>
    cases h
    exact (bind_ok _).symm
  | cons call order ih =>
    obtain ⟨m, hm, hrest⟩ := System.run_cons_eq_some.mp h
    rw [ih hrest, serialStep_queue hm, bind_assoc]
    rfl

/-- What the queue is when no thread is inside a call: what the calls make of it one after the
other, and a well-formed list, first in, first out, where `malloc` has always had a new node. -/
structure Linearized (s : Machine (fun _ : Unit => Call TsQueue) (fun _ : T => QueueVars)
    (fun _ : T => TsCall)) : Prop where
  calls : s.store () = tsCallsNolock tsQueueNew (lockedCalls s.order)
  list : ∀ nodes, System.run tsListCall [] (lockedCalls s.order) = some nodes →
    ∃ q, s.store () = .ok q ∧ WellFormed q nodes ∧ ∃ k ≤ (lockedCalls s.order).count .dequeue,
      nodes = ((lockedCalls s.order).filterMap TsCall.enqueued).drop k

/-- However the single steps of the threads come, the calls of the queue are as good as atomic:
they take effect one after the other, a call that has ended before another one begins goes
before it, who touches the queue holds its mutex, and some thread can always go on. -/
theorem ts_queue_linearizable (h : System.run (step (queueCode T)) (queueStart T) ls = some s) :
    (Idle s → Linearized s) ∧
    (∀ ls₁ ls₂, ls = ls₁ ++ ls₂ →
      ∃ s₁, System.run (step (queueCode T)) (queueStart T) ls₁ = some s₁ ∧
        s₁.order <+: s.order ∧ ∀ t, s₁.order.filter (fun call => call.1 = t) ++ waiting s₁ t =
          (Locks.calls ls₁).filter fun call => call.1 = t) ∧
    (∀ t m f ops, (s.threads t).rest = .access m f :: ops → s.owner m = some t) ∧
    (¬ Idle s → ∃ t s', step (queueCode T) s (.next t) = some s') := by
  obtain ⟨hs, a, ha⟩ := serializes_of_run queueCode_disciplined h
  refine ⟨fun hidle => ?_, ?_, ?_, exists_next _ (fun _ => Nat.le_refl 0) hs⟩
  · have hstore : s.store () = tsCallsNolock tsQueueNew (lockedCalls s.order) := by
      rw [← (ha.idle hs hidle).1]
      exact serialRun_queue ha.run
    refine ⟨hstore, fun nodes hnodes => ?_⟩
    obtain ⟨q, hq, hrep⟩ := tsCallsNolock_refines .new hnodes
    exact ⟨q, hstore.trans hq, hrep.wellFormed, tsListCall_fifo hnodes⟩
  · rintro ls₁ ls₂ rfl
    rw [System.run_append] at h
    obtain ⟨s₁, h₁, h₂⟩ := Option.bind_eq_some_iff.mp h
    refine ⟨s₁, h₁, order_run h₂, fun t => ?_⟩
    exact callsOf_run h₁ t
  · intro t m f ops hrest
    have ht := hs t
    rw [hrest] at ht
    exact ht.1

end

/-- A second thread comes while the first one is inside `ts_queue_enqueue`, and the first one
dequeues in the end. -/
def contended : List (Action fun _ : Bool => TsCall) :=
  .call true (.enqueue (some 7) (some 1)) :: List.replicate 5 (.next true) ++
    .call false (.enqueue (some 8) (some 2)) :: List.replicate 9 (.next true) ++
    .call true .dequeue :: List.replicate 14 (.next false) ++ List.replicate 17 (.next true)

theorem contended_run :
    ∃ s, System.run (step (queueCode Bool)) (queueStart Bool) contended = some s ∧ Idle s ∧
      lockedCalls s.order =
        [.enqueue (some 7) (some 1), .enqueue (some 8) (some 2), .dequeue] := by
  have hrun : (System.run (step (queueCode Bool)) (queueStart Bool) contended).map (fun s =>
      ((s.threads true).rest.isEmpty && (s.threads false).rest.isEmpty, lockedCalls s.order)) =
      some (true, [.enqueue (some 7) (some 1), .enqueue (some 8) (some 2), .dequeue]) := by
    decide +kernel
  obtain ⟨s, hs, hends⟩ := Option.map_eq_some_iff.mp hrun
  have hidle := congrArg Prod.fst hends
  rw [Bool.and_eq_true, List.isEmpty_iff, List.isEmpty_iff] at hidle
  refine ⟨s, hs, fun t => ?_, congrArg Prod.snd hends⟩
  cases t with
  | true => exact hidle.1
  | false => exact hidle.2

theorem ts_queue_linearizable_contended :
    ∃ s q, System.run (step (queueCode Bool)) (queueStart Bool) contended = some s ∧
      s.store () = .ok q ∧ WellFormed q [(2, some 8)] := by
  obtain ⟨s, hs, hidle, horder⟩ := contended_run
  obtain ⟨-, hlist⟩ := (ts_queue_linearizable hs).1 hidle
  obtain ⟨q, hq, hwell, -⟩ := hlist [(2, some 8)] (by rw [horder]; rfl)
  exact ⟨s, q, hs, hq, hwell⟩

end CPong
