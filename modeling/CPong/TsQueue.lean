import CPong.Lib.Chain
import CPong.Lib.Pointers
import Mathlib.Data.List.Nodup

/-!
# The queue

The functions of `ts_queue.c` on the nodes they allocate. A queue that holds a list is laid
out along its nodes in both directions and counts them; every operation on the list is one
on the nodes.
-/

namespace CPong

set_option autoImplicit false

open Lib.Pointers
open Lib.Chain

abbrev Ptr := Nat

/-- `struct ts_queue`, with the memory of its nodes. Its mutex is free or held. The nodes that
`size` counts lie in memory together, so a `size_t` does not wrap. -/
structure TsQueue where
  head : Option Ptr
  tail : Option Ptr
  size : Nat
  mutex : Bool
  nodes : Cells (Option Ptr)

def tsQueueNew : TsQueue := ⟨none, none, 0, false, fun _ => none⟩

def tsQueueNodeNew (nodes : Cells (Option Ptr)) (answer : Option Ptr) :
    Call (Ptr × Cells (Option Ptr)) := do
  match ← malloc nodes answer with
  | none => .error .segfault
  | some node => return (node, Function.update nodes node (some ⟨none, none, none⟩))

def TsQueue.lock (q : TsQueue) : Call TsQueue := do
  let mutex ← Lib.Pointers.lock q.mutex
  return { q with mutex := mutex }

def TsQueue.unlock (q : TsQueue) : TsQueue := { q with mutex := false }

def TsQueue.assign (q : TsQueue) (p : Option Ptr) (f : Cell (Option Ptr) → Cell (Option Ptr)) :
    Call TsQueue := do
  let nodes ← Lib.Pointers.assign q.nodes p f
  return { q with nodes := nodes }

/-- The default `data_destructor` does nothing and no queue has another. -/
def tsQueueNodeDestructor (q : TsQueue) (node : Option Ptr) : Call TsQueue := do
  let _ ← deref q.nodes node
  let nodes ← free q.nodes node
  return { q with nodes := nodes }

def tsQueueIsEmpty (q : TsQueue) : Bool := q.head = none

def tsQueueAdd (q : TsQueue) (prev next : Option Ptr) (node : Ptr) : Call TsQueue :=
  let q := { q with size := q.size + 1 }
  if tsQueueIsEmpty q then
    .ok { q with head := some node, tail := some node }
  else if prev = none then do
    let q := { q with head := some node }
    let q ← q.assign next fun c => { c with prev := some node }
    q.assign (some node) fun c => { c with next := next }
  else if next = none then do
    let q := { q with tail := some node }
    let q ← q.assign prev fun c => { c with next := some node }
    q.assign (some node) fun c => { c with prev := prev }
  else do
    let q ← q.assign prev fun c => { c with next := some node }
    let q ← q.assign next fun c => { c with prev := some node }
    let q ← q.assign (some node) fun c => { c with prev := prev }
    q.assign (some node) fun c => { c with next := next }

/-- `if (prev != NULL) { node = prev->next; prev->next = next; }` -/
def detachNext (q : TsQueue) (prev next node : Option Ptr) : Call (Option Ptr × TsQueue) :=
  if prev = none then .ok (node, q)
  else do
    let c ← deref q.nodes prev
    let q ← q.assign prev fun c => { c with next := next }
    return (c.next, q)

/-- `if (next != NULL) { node = next->prev; next->prev = prev; }` -/
def detachPrev (q : TsQueue) (prev next node : Option Ptr) : Call (Option Ptr × TsQueue) :=
  if next = none then .ok (node, q)
  else do
    let c ← deref q.nodes next
    let q ← q.assign next fun c => { c with prev := prev }
    return (c.prev, q)

/-- `q->size--`, and the ends where the removed node is one. -/
def detachEnds (q : TsQueue) (prev next : Option Ptr) : TsQueue :=
  { q with
    size := q.size - 1
    head := if prev = none then next else q.head
    tail := if next = none then prev else q.tail }

def tsQueueRemoveNolock (q : TsQueue) (prev next : Option Ptr) : Call TsQueue :=
  if tsQueueIsEmpty q then .ok q
  else do
    let node := if prev = none ∧ next = none then q.tail else none
    let (node, q) ← detachNext (detachEnds q prev next) prev next node
    let (node, q) ← detachPrev q prev next node
    tsQueueNodeDestructor q node

/-- The mutex is locked at both ends. -/
def tsQueueRemove (q : TsQueue) (prev next : Option Ptr) : Call TsQueue := do
  let q ← q.lock
  let q ← tsQueueRemoveNolock q prev next
  q.lock

def tsQueueEnqueueNolock (q : TsQueue) (item answer : Option Ptr) : Call TsQueue := do
  let (newNode, nodes) ← tsQueueNodeNew q.nodes answer
  let q ← { q with nodes := nodes }.assign (some newNode) fun c => { c with data := item }
  tsQueueAdd q q.tail none newNode

def tsQueueEnqueue (q : TsQueue) (item answer : Option Ptr) : Call TsQueue := do
  let q ← q.lock
  let q ← tsQueueEnqueueNolock q item answer
  return q.unlock

def tsQueueDequeueNolock (q : TsQueue) : Call TsQueue :=
  if tsQueueIsEmpty q then .ok q
  else do
    let c ← deref q.nodes q.head
    tsQueueRemoveNolock q none c.next

def tsQueueDequeue (q : TsQueue) : Call TsQueue := do
  let q ← q.lock
  let q ← tsQueueDequeueNolock q
  return q.unlock

/-- What the nodes of the queue point to, from head to tail. -/
def TsQueue.items (q : TsQueue) : Option (List (Option Ptr)) := follow q.nodes q.size q.head

/-- The nodes of the queue are laid out as `cells`, from head to tail. -/
structure Holds (q : TsQueue) (cells : List (Ptr × Option Ptr)) : Prop where
  linked : Linked q.nodes none cells none
  nodup : (pointers cells).Nodup
  head : q.head = firstOr none cells
  tail : q.tail = lastOr none cells
  size : q.size = cells.length

variable {q : TsQueue} {cells l r : List (Ptr × Option Ptr)} {c : Ptr × Option Ptr}
  {node : Option Ptr}

theorem TsQueue.lock_free (hfree : q.mutex = false) : q.lock = .ok { q with mutex := true } := by
  rw [TsQueue.lock, hfree]
  rfl

theorem Holds.new : Holds tsQueueNew [] := ⟨trivial, List.nodup_nil, rfl, rfl, rfl⟩

theorem Holds.withMutex (h : Holds q cells) (mutex : Bool) :
    Holds { q with mutex := mutex } cells :=
  ⟨h.linked, h.nodup, h.head, h.tail, h.size⟩

theorem Holds.isEmpty (h : Holds q cells) : tsQueueIsEmpty q = true ↔ cells = [] := by
  rw [tsQueueIsEmpty, decide_eq_true_iff, h.head]
  exact firstOr_eq_none

theorem Holds.items (h : Holds q cells) : q.items = some (cells.map Prod.snd) := by
  rw [TsQueue.items, h.size, h.head]
  exact h.linked.follow (Nat.le_refl _)

section Remove

theorem detachNext_linked (hl : Linked q.nodes none (l ++ c :: r) none)
    (hnodup : (pointers (l ++ c :: r)).Nodup) (node : Option Ptr) :
    ∃ nodes, detachNext q (lastOr none l) (firstOr none r) node =
        .ok (if l = [] then node else some c.1, { q with nodes := nodes }) ∧
      Linked nodes none l (firstOr none r) ∧ Linked nodes (some c.1) r none ∧
      nodes c.1 = q.nodes c.1 := by
  have hsplit := linked_append.mp hl
  rcases List.eq_nil_or_concat' l with rfl | ⟨l, a, rfl⟩
  · refine ⟨q.nodes, rfl, trivial, hsplit.2.2, rfl⟩
  · simp only [pointers_append, pointers_cons, pointers_nil, List.nodup_append,
      List.nodup_cons, List.mem_append, List.mem_cons] at hnodup
    have ha : a.1 ∉ pointers l := by grind
    have har : a.1 ∉ pointers r := by grind
    have hac : c.1 ≠ a.1 := by grind
    have hlast : q.nodes a.1 = some ⟨a.2, lastOr none l, some c.1⟩ := hsplit.1.last
    refine ⟨_, ?_, hsplit.1.set_next ha _, hsplit.2.2.frame har _,
      Function.update_of_ne hac _ _⟩
    rw [lastOr_concat, detachNext, if_neg (Option.some_ne_none _), deref_eq hlast, ok_bind,
      TsQueue.assign, assign_eq hlast]
    simp

theorem detachPrev_linked (hl : Linked q.nodes none l (firstOr none r))
    (hr : Linked q.nodes (some c.1) r none) (hnodup : (pointers (l ++ c :: r)).Nodup)
    (node : Option Ptr) :
    ∃ nodes, detachPrev q (lastOr none l) (firstOr none r) node =
        .ok (if r = [] then node else some c.1, { q with nodes := nodes }) ∧
      Linked nodes none (l ++ r) none ∧ nodes c.1 = q.nodes c.1 := by
  cases r with
  | nil => exact ⟨q.nodes, rfl, by rwa [List.append_nil], rfl⟩
  | cons b r =>
    simp only [pointers_append, pointers_cons, List.nodup_append, List.nodup_cons,
      List.mem_cons] at hnodup
    have hb : b.1 ∉ pointers r := by grind
    have hbl : b.1 ∉ pointers l := by grind
    have hbc : c.1 ≠ b.1 := by grind
    have hfirst : q.nodes b.1 = some ⟨b.2, some c.1, firstOr none r⟩ := hr.1
    refine ⟨_, ?_, linked_append.mpr ⟨hl.frame hbl _, hr.set_prev hb _⟩,
      Function.update_of_ne hbc _ _⟩
    rw [firstOr, detachPrev, if_neg (Option.some_ne_none _), deref_eq hfirst, ok_bind,
      TsQueue.assign, assign_eq hfirst]
    simp

/-- Removing what lies between two neighbours takes that one node out, and frees it. -/
theorem tsQueueRemoveNolock_holds (h : Holds q (l ++ c :: r)) :
    ∃ q', tsQueueRemoveNolock q (lastOr none l) (firstOr none r) = .ok q' ∧
      Holds q' (l ++ r) ∧ q'.mutex = q.mutex ∧ q'.nodes c.1 = none := by
  have hne : ¬ tsQueueIsEmpty q = true := by
    rw [h.isEmpty]
    simp
  have hc : c.1 ∉ pointers (l ++ r) ∧ (pointers (l ++ r)).Nodup := by
    have hnodup := h.nodup
    simp only [pointers_append, pointers_cons] at hnodup ⊢
    exact List.nodup_middle.mp hnodup |> List.nodup_cons.mp
  -- The tail is the node to remove where it is the only one.
  obtain ⟨node, hnode, honly⟩ : ∃ node,
      (if lastOr none l = none ∧ firstOr none r = none then q.tail else none) = node ∧
      (if r = [] then (if l = [] then node else some c.1) else some c.1) = some c.1 := by
    refine ⟨_, rfl, ?_⟩
    split_ifs with hr hl hends
    · subst hl hr
      exact h.tail
    · simp_all [lastOr, firstOr]
    · rfl
    · rfl
  obtain ⟨nodes₁, hnext, hl₁, hr₁, hc₁⟩ := detachNext_linked
    (q := detachEnds q (lastOr none l) (firstOr none r)) h.linked h.nodup node
  obtain ⟨nodes₂, hprev, hlr, hc₂⟩ := detachPrev_linked
    (q := { detachEnds q (lastOr none l) (firstOr none r) with nodes := nodes₁ })
    hl₁ hr₁ h.nodup (if l = [] then node else some c.1)
  obtain ⟨prev, next, hlive⟩ : ∃ prev next, nodes₂ c.1 = some ⟨c.2, prev, next⟩ := by
    obtain ⟨prev, next, hlive⟩ := h.linked.live (c := c) (by simp)
    exact ⟨prev, next, hc₂.trans (hc₁.trans hlive)⟩
  refine ⟨{ detachEnds q (lastOr none l) (firstOr none r) with
    nodes := Function.update nodes₂ c.1 none }, ?_, ⟨hlr.frame hc.1 none, hc.2, ?_, ?_, ?_⟩, rfl,
    Function.update_self c.1 _ _⟩
  · rw [tsQueueRemoveNolock, if_neg hne]
    simp only [hnode, hnext, ok_bind, hprev, honly]
    rw [tsQueueNodeDestructor, deref_eq hlive, ok_bind, free_eq hlive, ok_bind, pure_eq_ok]
  · change (if lastOr none l = none then firstOr none r else q.head) = _
    rw [firstOr_append]
    cases l with
    | nil => rfl
    | cons a l =>
      rw [if_neg (mt lastOr_eq_none.mp (List.cons_ne_nil a l))]
      exact h.head
  · change (if firstOr none r = none then lastOr none l else q.tail) = _
    rw [lastOr_append]
    cases r with
    | nil => rfl
    | cons b r =>
      rw [if_neg (mt firstOr_eq_none.mp (List.cons_ne_nil b r)), h.tail, lastOr_append]
      rfl
  · have hsize := h.size
    simp only [detachEnds, List.length_append, List.length_cons] at hsize ⊢
    omega

theorem Holds.dequeue_eq (h : Holds q (c :: r)) :
    tsQueueDequeueNolock q = tsQueueRemoveNolock q none (firstOr none r) := by
  have hhead : q.nodes c.1 = some ⟨c.2, none, firstOr none r⟩ := h.linked.1
  rw [tsQueueDequeueNolock, if_neg (mt h.isEmpty.mp (List.cons_ne_nil c r)), h.head, firstOr,
    deref_eq hhead, ok_bind]

/-- The head leaves the queue. -/
theorem tsQueueDequeueNolock_holds (h : Holds q (c :: r)) :
    ∃ q', tsQueueDequeueNolock q = .ok q' ∧ Holds q' r ∧ q'.mutex = q.mutex := by
  obtain ⟨q', hremove, hholds, hmutex, -⟩ := tsQueueRemoveNolock_holds (l := []) h
  exact ⟨q', h.dequeue_eq.trans hremove, hholds, hmutex⟩

end Remove

section Live
variable {prev next : Option Ptr}

def TsQueue.live (q : TsQueue) (p : Option Ptr) : Bool := (p.bind q.nodes).isSome

/-- The node that `__ts_queue_remove_nolock` takes to lie between two pointers. -/
def TsQueue.between (q : TsQueue) (prev next : Option Ptr) : Option Ptr :=
  if next = none then
    if prev = none then q.tail else (prev.bind q.nodes).bind Cell.next
  else (next.bind q.nodes).bind Cell.prev

/-- The pointers name nodes, if anything, and there is a node between them. -/
def TsQueue.removable (q : TsQueue) (prev next : Option Ptr) : Bool :=
  q.head.isNone || (prev.isNone || q.live prev) && (next.isNone || q.live next) &&
    q.live (q.between prev next)

/-- The nodes are linked in another way. -/
structure SameNodes (q q' : TsQueue) : Prop where
  live : ∀ x, q'.live x = q.live x
  mutex : q'.mutex = q.mutex

theorem TsQueue.assign_live {p : Ptr} {c : Cell (Option Ptr)} (hp : q.nodes p = some c)
    (f : Cell (Option Ptr) → Cell (Option Ptr)) :
    ∃ q', q.assign (some p) f = .ok q' ∧ SameNodes q q' ∧
      q'.nodes = Function.update q.nodes p (some (f c)) := by
  refine ⟨{ q with nodes := Function.update q.nodes p (some (f c)) }, ?_, ⟨?_, rfl⟩, rfl⟩
  · rw [TsQueue.assign, assign_eq hp]
    rfl
  · intro x
    cases x with
    | none => rfl
    | some a =>
      by_cases ha : a = p
      · simp [TsQueue.live, ha, hp]
      · simp [TsQueue.live, ha]

/-- What the removal comes to once it has its node. -/
theorem tsQueueNodeDestructor_live (q : TsQueue) (node : Option Ptr) :
    (q.live node = true ∧ ∃ q', tsQueueNodeDestructor q node = .ok q' ∧ q'.mutex = q.mutex) ∨
      (q.live node = false ∧ tsQueueNodeDestructor q node = .error .segfault) := by
  cases node with
  | none => exact Or.inr ⟨rfl, rfl⟩
  | some p =>
    cases hp : q.nodes p with
    | none =>
      refine Or.inr ⟨by simp [TsQueue.live, hp], ?_⟩
      simp [tsQueueNodeDestructor, deref, hp]
    | some c =>
      refine Or.inl ⟨by simp [TsQueue.live, hp],
        { q with nodes := Function.update q.nodes p none }, ?_, rfl⟩
      rw [tsQueueNodeDestructor, deref_eq hp, ok_bind, free_eq hp, ok_bind, pure_eq_ok]

theorem detachPrev_live (q : TsQueue) (prev next node : Option Ptr) :
    ((next.isNone || q.live next) = true ∧ ∃ q', detachPrev q prev next node =
        .ok (if next = none then node else (next.bind q.nodes).bind Cell.prev, q') ∧
        SameNodes q q') ∨
      ((next.isNone || q.live next) = false ∧
        detachPrev q prev next node = .error .segfault) := by
  unfold detachPrev
  cases next with
  | none => exact Or.inl ⟨rfl, q, rfl, fun _ => rfl, rfl⟩
  | some n =>
    cases hn : q.nodes n with
    | none =>
      right
      exact ⟨by simp [TsQueue.live, hn], by simp [deref, hn]⟩
    | some c =>
      left
      obtain ⟨q', hassign, hsame, -⟩ := TsQueue.assign_live hn fun c => { c with prev := prev }
      refine ⟨by simp [TsQueue.live, hn], q', ?_, hsame⟩
      simp only [reduceCtorEq, if_false, deref_eq hn, ok_bind, hassign, Option.bind_some, hn,
        pure_eq_ok]

theorem detachNext_live (q : TsQueue) (prev next node : Option Ptr) :
    ((prev.isNone || q.live prev) = true ∧ ∃ q', detachNext q prev next node =
        .ok (if prev = none then node else (prev.bind q.nodes).bind Cell.next, q') ∧
        SameNodes q q' ∧
        ∀ x : Option Ptr, (x.bind q'.nodes).bind Cell.prev = (x.bind q.nodes).bind Cell.prev) ∨
      ((prev.isNone || q.live prev) = false ∧
        detachNext q prev next node = .error .segfault) := by
  unfold detachNext
  cases prev with
  | none => exact Or.inl ⟨rfl, q, rfl, ⟨fun _ => rfl, rfl⟩, fun _ => rfl⟩
  | some p =>
    cases hp : q.nodes p with
    | none =>
      right
      exact ⟨by simp [TsQueue.live, hp], by simp [deref, hp]⟩
    | some c =>
      left
      obtain ⟨q', hassign, hsame, hnodes⟩ :=
        TsQueue.assign_live hp fun c => { c with next := next }
      refine ⟨by simp [TsQueue.live, hp], q', ?_, hsame, ?_⟩
      · simp only [reduceCtorEq, if_false, deref_eq hp, ok_bind, hassign, Option.bind_some, hp,
          pure_eq_ok]
      · intro x
        rw [hnodes]
        cases x with
        | none => rfl
        | some a =>
          by_cases ha : a = p
          · simp [ha, hp]
          · simp [ha]

/-- Which pointers `__ts_queue_remove_nolock` can do with, on any queue. -/
theorem tsQueueRemoveNolock_removable (q : TsQueue) (prev next : Option Ptr) :
    (q.removable prev next = true ∧
        ∃ q', tsQueueRemoveNolock q prev next = .ok q' ∧ q'.mutex = q.mutex) ∨
      (q.removable prev next = false ∧ tsQueueRemoveNolock q prev next = .error .segfault) := by
  unfold tsQueueRemoveNolock TsQueue.removable
  by_cases hempty : q.head = none
  · exact Or.inl ⟨by simp [hempty], q, by simp [tsQueueIsEmpty, hempty], rfl⟩
  have hsome : ¬ tsQueueIsEmpty q = true := by simpa [tsQueueIsEmpty] using hempty
  have hhead : q.head.isNone = false := by
    rw [← Bool.not_eq_true, Option.isNone_iff_eq_none]
    exact hempty
  rw [if_neg hsome, hhead, Bool.false_or]
  dsimp only
  rcases detachNext_live (detachEnds q prev next) prev next
    (if prev = none ∧ next = none then q.tail else none) with
    ⟨hprev, q₁, hnext, hsame₁, hkept⟩ | ⟨hprev, hnext⟩
  · change (prev.isNone || q.live prev) = true at hprev
    have hnode : (if next = none then
        if prev = none then if prev = none ∧ next = none then q.tail else none
        else (prev.bind q.nodes).bind Cell.next
        else (next.bind q₁.nodes).bind Cell.prev) = q.between prev next := by
      unfold TsQueue.between
      split_ifs with hn hp hboth
      · rfl
      · exact absurd ⟨hp, hn⟩ hboth
      · rfl
      · exact hkept next
    have hlive₁ (x : Option Ptr) : q₁.live x = q.live x := hsame₁.live x
    have hnext' : detachNext (detachEnds q prev next) prev next
        (if prev = none ∧ next = none then q.tail else none) =
        .ok (if prev = none then if prev = none ∧ next = none then q.tail else none
          else (prev.bind q.nodes).bind Cell.next, q₁) := hnext
    rw [hnext', ok_bind, hprev, Bool.true_and]
    dsimp only
    rcases detachPrev_live q₁ prev next
      (if prev = none then if prev = none ∧ next = none then q.tail else none
        else (prev.bind q.nodes).bind Cell.next) with ⟨hn, q₂, hdetach, hsame₂⟩ | ⟨hn, hdetach⟩
    · rw [hlive₁] at hn
      rw [hdetach, ok_bind, hn, Bool.true_and, hnode]
      dsimp only
      rcases tsQueueNodeDestructor_live q₂ (q.between prev next) with
        ⟨hlive, q', hfree, hmutex⟩ | ⟨hdead, hcrash⟩
      · rw [hsame₂.live, hlive₁] at hlive
        exact Or.inl ⟨hlive, q', hfree, hmutex.trans (hsame₂.mutex.trans hsame₁.mutex)⟩
      · rw [hsame₂.live, hlive₁] at hdead
        exact Or.inr ⟨hdead, hcrash⟩
    · rw [hlive₁] at hn
      rw [hdetach, hn, Bool.false_and]
      exact Or.inr ⟨rfl, rfl⟩
  · change (prev.isNone || q.live prev) = false at hprev
    rw [hnext, hprev]
    exact Or.inr ⟨rfl, rfl⟩

end Live

section Add
variable {item : Option Ptr} {p : Ptr}

/-- The tail gets a neighbour. -/
theorem tsQueueAdd_holds (h : Holds q cells) (hp : p ∉ pointers cells) {nodes : Cells (Option Ptr)}
    (hnodes : Linked nodes none cells none) (hnew : nodes p = some ⟨item, none, none⟩) :
    ∃ q', tsQueueAdd { q with nodes := nodes } q.tail none p = .ok q' ∧
      Holds q' (cells ++ [(p, item)]) ∧ q'.mutex = q.mutex := by
  have hnodup : (pointers (cells ++ [(p, item)])).Nodup := by
    rw [pointers_append, pointers_cons, pointers_nil, List.nodup_append]
    refine ⟨h.nodup, List.nodup_singleton p, ?_⟩
    intro a ha b hb heq
    rw [heq, List.mem_singleton.mp hb] at ha
    exact hp ha
  have hlength : q.size + 1 = (cells ++ [(p, item)]).length := by
    rw [h.size, List.length_append, List.length_singleton]
  rcases List.eq_nil_or_concat' cells with rfl | ⟨l, a, rfl⟩
  · refine ⟨{ q with head := some p, tail := some p, size := q.size + 1, nodes := nodes }, ?_,
      ⟨⟨hnew, trivial⟩, hnodup, rfl, rfl, hlength⟩, rfl⟩
    rw [tsQueueAdd, tsQueueIsEmpty, h.head]
    rfl
  · have hlast : nodes a.1 = some ⟨a.2, lastOr none l, none⟩ := hnodes.last
    have hnodup' := h.nodup
    simp only [pointers_append, pointers_cons, pointers_nil, List.mem_append, List.nodup_append,
      List.mem_singleton] at hp hnodup'
    have hal : a.1 ∉ pointers l := by grind
    have hpa : p ≠ a.1 := by grind
    have htail : q.tail = some a.1 := h.tail.trans (lastOr_concat none l a)
    have hne : ¬ q.head = none := by
      rw [h.head, firstOr_eq_none]
      simp
    refine ⟨{ q with
      tail := some p
      size := q.size + 1
      nodes := Function.update (Function.update nodes a.1 (some ⟨a.2, lastOr none l, some p⟩)) p
        (some ⟨item, some a.1, none⟩) }, ?_, ⟨?_, hnodup, ?_, ?_, hlength⟩, rfl⟩
    · have hnew' : Function.update nodes a.1 (some ⟨a.2, lastOr none l, some p⟩) p =
          some ⟨item, none, none⟩ := by
        rw [Function.update_of_ne hpa, hnew]
      simp [tsQueueAdd, tsQueueIsEmpty, hne, htail, TsQueue.assign, assign_eq hlast,
        assign_eq hnew']
    · refine linked_append.mpr ⟨(hnodes.set_next hal (some p)).frame ?_ _, ?_, trivial⟩
      · simp only [pointers_append, pointers_cons, pointers_nil, List.mem_append,
          List.mem_singleton]
        exact hp
      · rw [lastOr_concat]
        exact Function.update_self p _ _
    · change q.head = _
      rw [h.head]
      cases l with
      | nil => rfl
      | cons b l => rfl
    · rw [lastOr_concat]

/-- A fresh node goes behind the tail. -/
theorem tsQueueEnqueueNolock_holds (h : Holds q cells) (hp : q.nodes p = none)
    (item : Option Ptr) :
    ∃ q', tsQueueEnqueueNolock q item (some p) = .ok q' ∧ Holds q' (cells ++ [(p, item)]) ∧
      q'.mutex = q.mutex := by
  have hfresh : p ∉ pointers cells := h.linked.not_mem hp
  have hframe := (h.linked.frame hfresh (some ⟨none, none, none⟩)).frame hfresh
    (some ⟨item, none, none⟩)
  obtain ⟨q', hadd, hholds, hmutex⟩ := tsQueueAdd_holds h hfresh hframe
    (Function.update_self p _ _)
  refine ⟨q', ?_, hholds, hmutex⟩
  rw [tsQueueEnqueueNolock, tsQueueNodeNew, malloc_eq hp]
  simp only [ok_bind, pure_eq_ok, TsQueue.assign, assign_eq (Function.update_self p _ q.nodes)]
  exact hadd

end Add

end CPong
