import CPong.Lib.System
import CPong.TsQueue

/-!
# The queue as a list

Runs of the operations of `ts_queue.c` that take no lock, on the nodes in memory, beside the
same operations on the list that the queue stands for.
-/

namespace CPong

set_option autoImplicit false

open Lib.Pointers
open Lib.Chain

section Insert
variable {q : TsQueue} {l r : List (Ptr × Option Ptr)} {a b : Ptr × Option Ptr}
  {item : Option Ptr} {p : Ptr} {nodes : Cells (Option Ptr)}

theorem nodup_insert (hnodup : (pointers (l ++ r)).Nodup) (hp : p ∉ pointers (l ++ r)) :
    (pointers (l ++ (p, item) :: r)).Nodup := by
  rw [pointers_append] at hnodup hp
  rw [pointers_append, pointers_cons, List.nodup_middle, List.nodup_cons]
  exact ⟨hp, hnodup⟩

/-- The head gets a neighbour. -/
theorem tsQueueAdd_first (h : Holds q (b :: r)) (hp : p ∉ pointers (b :: r))
    (hnodes : Linked nodes none (b :: r) none) (hnew : nodes p = some ⟨item, none, none⟩) :
    ∃ q', tsQueueAdd { q with nodes := nodes } none (some b.1) p = .ok q' ∧
      Holds q' ((p, item) :: b :: r) := by
  have hne : ¬ q.head = none := by
    rw [h.head]
    exact Option.some_ne_none _
  have hb : nodes b.1 = some ⟨b.2, none, firstOr none r⟩ := hnodes.1
  have hbr : b.1 ∉ pointers r := (List.nodup_cons.mp h.nodup).1
  have hpb : p ≠ b.1 := fun heq => hp (heq ▸ List.mem_cons_self)
  refine ⟨{ q with
    head := some p
    size := q.size + 1
    nodes := Function.update (Function.update nodes b.1 (some ⟨b.2, some p, firstOr none r⟩)) p
      (some ⟨item, none, some b.1⟩) }, ?_, ⟨⟨?_, ?_⟩, ?_, rfl, ?_, ?_⟩⟩
  · have hnew' : Function.update nodes b.1 (some ⟨b.2, some p, firstOr none r⟩) p =
        some ⟨item, none, none⟩ := by
      rw [Function.update_of_ne hpb, hnew]
    simp [tsQueueAdd, tsQueueIsEmpty, hne, TsQueue.assign, assign_eq hb, assign_eq hnew']
  · exact Function.update_self p _ _
  · exact (hnodes.set_prev hbr (some p)).frame hp _
  · exact nodup_insert (l := []) h.nodup hp
  · exact h.tail
  · simpa using h.size

/-- A node comes between two others. -/
theorem tsQueueAdd_middle (h : Holds q ((l ++ [a]) ++ b :: r))
    (hp : p ∉ pointers ((l ++ [a]) ++ b :: r))
    (hnodes : Linked nodes none ((l ++ [a]) ++ b :: r) none)
    (hnew : nodes p = some ⟨item, none, none⟩) :
    ∃ q', tsQueueAdd { q with nodes := nodes } (some a.1) (some b.1) p = .ok q' ∧
      Holds q' ((l ++ [a]) ++ (p, item) :: b :: r) := by
  have hne : ¬ q.head = none := by
    rw [h.head, firstOr_eq_none]
    simp
  obtain ⟨hleft, hright⟩ := linked_append.mp hnodes
  rw [lastOr_concat] at hright
  have ha : nodes a.1 = some ⟨a.2, lastOr none l, some b.1⟩ := hleft.last
  have hb : nodes b.1 = some ⟨b.2, some a.1, firstOr none r⟩ := hright.1
  have hab : b.1 ≠ a.1 := (not_mem_ends h.nodup).1
  have hpa : p ≠ a.1 := fun heq => hp (by rw [heq]; simp)
  have hpb : p ≠ b.1 := fun heq => hp (by rw [heq]; simp)
  refine ⟨{ q with
    size := q.size + 1
    nodes := Function.update (Function.update (Function.update nodes
      a.1 (some ⟨a.2, lastOr none l, some p⟩)) b.1 (some ⟨b.2, some p, firstOr none r⟩))
      p (some ⟨item, some a.1, some b.1⟩) }, ?_,
    ⟨hnodes.insert h.nodup hp item, nodup_insert h.nodup hp, ?_, ?_, ?_⟩⟩
  · have hb' : Function.update nodes a.1 (some ⟨a.2, lastOr none l, some p⟩) b.1 =
        some ⟨b.2, some a.1, firstOr none r⟩ := by
      rw [Function.update_of_ne hab, hb]
    have hnew' : Function.update (Function.update nodes a.1 (some ⟨a.2, lastOr none l, some p⟩))
        b.1 (some ⟨b.2, some p, firstOr none r⟩) p = some ⟨item, none, none⟩ := by
      rw [Function.update_of_ne hpb, Function.update_of_ne hpa, hnew]
    have hnew'' := Function.update_self p (some (⟨item, some a.1, none⟩ : Cell (Option Ptr)))
      (Function.update (Function.update nodes a.1 (some ⟨a.2, lastOr none l, some p⟩))
        b.1 (some ⟨b.2, some p, firstOr none r⟩))
    simp [tsQueueAdd, tsQueueIsEmpty, hne, TsQueue.assign, assign_eq ha, assign_eq hb',
      assign_eq hnew', assign_eq hnew'']
  · rw [h.head, firstOr_append, firstOr_append]
    cases l with
    | nil => rfl
    | cons c l => rfl
  · rw [h.tail, lastOr_append, lastOr_append none (l ++ [a])]
    rfl
  · have hsize := h.size
    simp only [List.length_append, List.length_cons] at hsize ⊢
    omega

/-- A fresh node comes between two neighbours, either of which may be missing. -/
theorem tsQueueAdd_between (h : Holds q (l ++ r)) (hp : p ∉ pointers (l ++ r))
    (hnodes : Linked nodes none (l ++ r) none) (hnew : nodes p = some ⟨item, none, none⟩) :
    ∃ q', tsQueueAdd { q with nodes := nodes } (lastOr none l) (firstOr none r) p = .ok q' ∧
      Holds q' (l ++ (p, item) :: r) := by
  cases r with
  | nil =>
    rw [List.append_nil] at h hp hnodes
    obtain ⟨q', hadd, hholds, -⟩ := tsQueueAdd_holds h hp hnodes hnew
    exact ⟨q', by rw [← h.tail]; exact hadd, hholds⟩
  | cons b r =>
    rcases List.eq_nil_or_concat' l with rfl | ⟨l, a, rfl⟩
    · exact tsQueueAdd_first h hp hnodes hnew
    · rw [lastOr_concat]
      exact tsQueueAdd_middle h hp hnodes hnew

end Insert

section Places
variable {q q' : TsQueue}

theorem TsQueue.assign_samePlaces {p : Option Ptr} {f : Cell (Option Ptr) → Cell (Option Ptr)}
    (h : q.assign p f = .ok q') : SamePlaces q.nodes q'.nodes := by
  obtain ⟨nodes, hassign, hres⟩ := bind_eq_ok.mp h
  cases hres
  exact Lib.Pointers.assign_samePlaces hassign

theorem tsQueueAdd_samePlaces {prev next : Option Ptr} {node : Ptr}
    (h : tsQueueAdd q prev next node = .ok q') : SamePlaces q.nodes q'.nodes := by
  unfold tsQueueAdd at h
  dsimp only at h
  split_ifs at h
  · cases h
    exact fun _ => rfl
  · obtain ⟨q₁, h₁, h₂⟩ := bind_eq_ok.mp h
    exact (TsQueue.assign_samePlaces h₁).trans (TsQueue.assign_samePlaces h₂)
  · obtain ⟨q₁, h₁, h₂⟩ := bind_eq_ok.mp h
    exact (TsQueue.assign_samePlaces h₁).trans (TsQueue.assign_samePlaces h₂)
  · obtain ⟨q₁, h₁, h⟩ := bind_eq_ok.mp h
    obtain ⟨q₂, h₂, h⟩ := bind_eq_ok.mp h
    obtain ⟨q₃, h₃, h₄⟩ := bind_eq_ok.mp h
    exact ((TsQueue.assign_samePlaces h₁).trans (TsQueue.assign_samePlaces h₂)).trans
      ((TsQueue.assign_samePlaces h₃).trans (TsQueue.assign_samePlaces h₄))

theorem detachNext_samePlaces {prev next node node' : Option Ptr}
    (h : detachNext q prev next node = .ok (node', q')) : SamePlaces q.nodes q'.nodes := by
  unfold detachNext at h
  split_ifs at h
  · cases h
    exact fun _ => rfl
  · obtain ⟨c, -, h⟩ := bind_eq_ok.mp h
    obtain ⟨q₁, h₁, hres⟩ := bind_eq_ok.mp h
    cases hres
    exact TsQueue.assign_samePlaces h₁

theorem detachPrev_samePlaces {prev next node node' : Option Ptr}
    (h : detachPrev q prev next node = .ok (node', q')) : SamePlaces q.nodes q'.nodes := by
  unfold detachPrev at h
  split_ifs at h
  · cases h
    exact fun _ => rfl
  · obtain ⟨c, -, h⟩ := bind_eq_ok.mp h
    obtain ⟨q₁, h₁, hres⟩ := bind_eq_ok.mp h
    cases hres
    exact TsQueue.assign_samePlaces h₁

/-- One object is given back, and it was there. -/
structure FreesOnly (h h' : Cells (Option Ptr)) (p : Ptr) : Prop where
  before : (h p).isSome = true
  after : h' p = none
  others : ∀ x, x ≠ p → (h' x).isSome = (h x).isSome

theorem tsQueueRemoveNolock_frees {prev next : Option Ptr} (hne : q.head ≠ none)
    (h : tsQueueRemoveNolock q prev next = .ok q') : ∃ p, FreesOnly q.nodes q'.nodes p := by
  unfold tsQueueRemoveNolock at h
  rw [if_neg (by simpa [tsQueueIsEmpty] using hne)] at h
  obtain ⟨⟨node₁, q₁⟩, h₁, h⟩ := bind_eq_ok.mp h
  obtain ⟨⟨node₂, q₂⟩, h₂, h⟩ := bind_eq_ok.mp h
  have hsame : SamePlaces q.nodes q₂.nodes :=
    (detachNext_samePlaces h₁).trans (detachPrev_samePlaces h₂)
  obtain ⟨c, hc, h⟩ := bind_eq_ok.mp h
  obtain ⟨nodes, hfree, hres⟩ := bind_eq_ok.mp h
  cases hres
  cases node₂ with
  | none => cases hc
  | some p =>
    have hlive : (q₂.nodes p).isSome = true := by
      by_contra hdead
      rw [free, if_neg hdead] at hfree
      cases hfree
    rw [free, if_pos hlive] at hfree
    cases hfree
    refine ⟨p, (hsame p).symm.trans hlive, Function.update_self p _ _, ?_⟩
    intro x hx
    change (Function.update q₂.nodes p none x).isSome = _
    rw [Function.update_of_ne hx]
    exact hsame x

end Places

/-- An operation. The node that it takes comes from `malloc`; a place is where a walk from the
head is after that many nodes. -/
inductive QueueOp where
  | enqueue (item : Option Ptr) (node : Ptr)
  | dequeue
  | add (place : Nat) (item : Option Ptr) (node : Ptr)
  | remove (place : Nat)
deriving DecidableEq, Repr

def QueueOp.allocates : QueueOp → Option Ptr
  | .enqueue _ node => some node
  | .dequeue => none
  | .add _ _ node => some node
  | .remove _ => none

/-- The caller of `__ts_queue_add` makes the node, and the one of `__ts_queue_remove_nolock`
takes the neighbours from the node. -/
def queueCall (q : TsQueue) : QueueOp → Call TsQueue
  | .enqueue item node => tsQueueEnqueueNolock q item (some node)
  | .dequeue => tsQueueDequeueNolock q
  | .add place item node => do
    let (newNode, nodes) ← tsQueueNodeNew q.nodes (some node)
    let q' ← { q with nodes := nodes }.assign (some newNode) fun c => { c with data := item }
    tsQueueAdd q' (if place = 0 then none else nth q.nodes (place - 1) q.head)
      (nth q.nodes place q.head) newNode
  | .remove place => do
    let c ← deref q.nodes (nth q.nodes place q.head)
    tsQueueRemoveNolock q c.prev c.next

def queueCalls (q : TsQueue) (ops : List QueueOp) : Call TsQueue := ops.foldlM queueCall q

/-- What the operations do to a list. A new node is none of the list, a place is in it. -/
def listStep (nodes : List (Ptr × Option Ptr)) : QueueOp → Option (List (Ptr × Option Ptr))
  | .enqueue item node => if node ∈ pointers nodes then none else some (nodes ++ [(node, item)])
  | .dequeue => some nodes.tail
  | .add place item node =>
    if place ≤ nodes.length ∧ node ∉ pointers nodes then
      some (nodes.take place ++ (node, item) :: nodes.drop place)
    else none
  | .remove place => if place < nodes.length then some (nodes.eraseIdx place) else none

/-- The queue is linked up in both directions along the nodes of the list. -/
structure WellFormed (q : TsQueue) (nodes : List (Ptr × Option Ptr)) : Prop where
  forward : forward q.nodes nodes.length q.head = some nodes
  backward : backward q.nodes nodes.length q.tail = some nodes.reverse
  head : q.head = none ↔ nodes = []
  tail : q.tail = none ↔ nodes = []
  size : q.size = nodes.length
  distinct : (pointers nodes).Nodup

def Freed (q q' : TsQueue) (p : Ptr) : Prop := (q.nodes p).isSome = true ∧ q'.nodes p = none

/-- The queue holds the list, and there are no other nodes in memory. -/
structure Represents (q : TsQueue) (nodes : List (Ptr × Option Ptr)) : Prop extends
    Holds q nodes where
  live : ∀ p, (q.nodes p).isSome = true ↔ p ∈ pointers nodes

section Steps
variable {q q' : TsQueue} {nodes nodes' l r : List (Ptr × Option Ptr)} {c : Ptr × Option Ptr}
  {item : Option Ptr} {p : Ptr} {op : QueueOp}

theorem Represents.new : Represents tsQueueNew [] where
  toHolds := .new
  live p := by simp [tsQueueNew]

theorem Represents.wellFormed (h : Represents q nodes) : WellFormed q nodes where
  forward := by rw [h.head]; exact h.linked.forward
  backward := by rw [h.tail]; exact h.linked.backward
  head := by rw [h.head, firstOr_eq_none]
  tail := by rw [h.tail, lastOr_eq_none]
  size := h.size
  distinct := h.nodup

theorem Represents.dead_iff (h : Represents q nodes) : q.nodes p = none ↔ p ∉ pointers nodes := by
  rw [← h.live, Option.isSome_iff_ne_none, not_not]

/-- The node between the two neighbours is the one that is given back. -/
theorem Represents.remove (h : Represents q (l ++ c :: r)) :
    ∃ q', tsQueueRemoveNolock q (lastOr none l) (firstOr none r) = .ok q' ∧
      Represents q' (l ++ r) := by
  obtain ⟨q', hremove, hholds, -⟩ := tsQueueRemoveNolock_holds h.toHolds
  have hne : q.head ≠ none := by
    rw [h.head, Ne, firstOr_eq_none]
    simp
  obtain ⟨p, hfrees⟩ := tsQueueRemoveNolock_frees hne hremove
  have hnodup := h.nodup
  rw [pointers_append, pointers_cons, List.nodup_middle, List.nodup_cons, ← pointers_append]
    at hnodup
  have hmem (x : Ptr) : x ∈ pointers (l ++ c :: r) ↔ x = c.1 ∨ x ∈ pointers (l ++ r) := by
    rw [pointers_append, pointers_cons, pointers_append, List.mem_append, List.mem_cons,
      List.mem_append]
    tauto
  have hp : p = c.1 := by
    have hold := (hmem p).mp ((h.live p).mp hfrees.before)
    exact hold.resolve_right (hholds.linked.not_mem hfrees.after)
  subst hp
  refine ⟨q', hremove, hholds, fun x => ?_⟩
  by_cases hx : x = c.1
  · subst hx
    rw [hfrees.after]
    exact iff_of_false (by simp) hnodup.1
  · rw [hfrees.others x hx, h.live, hmem]
    exact or_iff_right hx

/-- What is in memory after a node has been made and put in. -/
theorem Represents.insert (h : Represents q nodes) (hp : p ∉ pointers nodes)
    (hsame : SamePlaces (Function.update q.nodes p (some ⟨item, none, none⟩)) q'.nodes)
    (hholds : Holds q' (l ++ (p, item) :: r)) (hnodes : nodes = l ++ r) :
    Represents q' (l ++ (p, item) :: r) := by
  subst hnodes
  refine ⟨hholds, fun x => ?_⟩
  rw [hsame x, pointers_append, pointers_cons, List.mem_append, List.mem_cons]
  by_cases hx : x = p
  · simp [hx]
  · rw [Function.update_of_ne hx, h.live, pointers_append, List.mem_append]
    tauto

theorem tsQueueEnqueueNolock_eq (hp : q.nodes p = none) (item : Option Ptr) :
    tsQueueEnqueueNolock q item (some p) = tsQueueAdd
      { q with nodes := Function.update q.nodes p (some ⟨item, none, none⟩) } q.tail none p := by
  rw [tsQueueEnqueueNolock, tsQueueNodeNew, malloc_eq hp]
  simp only [ok_bind, pure_eq_ok, TsQueue.assign, assign_eq (Function.update_self p _ q.nodes),
    Function.update_idem]

theorem queueCall_add_eq (hp : q.nodes p = none) (place : Nat) (item : Option Ptr) :
    queueCall q (.add place item p) = tsQueueAdd
      { q with nodes := Function.update q.nodes p (some ⟨item, none, none⟩) }
      (if place = 0 then none else nth q.nodes (place - 1) q.head) (nth q.nodes place q.head)
      p := by
  rw [queueCall, tsQueueNodeNew, malloc_eq hp]
  simp only [ok_bind, pure_eq_ok, TsQueue.assign, assign_eq (Function.update_self p _ q.nodes),
    Function.update_idem]

theorem Holds.nth (h : Holds q (l ++ r)) : nth q.nodes l.length q.head = firstOr none r := by
  rw [h.head]
  exact h.linked.nth

theorem Holds.before (h : Holds q (l ++ r)) :
    (if l.length = 0 then none else Lib.Chain.nth q.nodes (l.length - 1) q.head) =
      lastOr none l := by
  rcases List.eq_nil_or_concat' l with rfl | ⟨l, a, rfl⟩
  · rfl
  · rw [List.append_assoc] at h
    rw [List.length_append, List.length_singleton, if_neg (Nat.succ_ne_zero _), lastOr_concat]
    exact h.nth

/-- A node put between two neighbours. -/
theorem Represents.add (h : Represents q (l ++ r)) (hp : p ∉ pointers (l ++ r))
    (item : Option Ptr) :
    ∃ q', tsQueueAdd { q with nodes := Function.update q.nodes p (some ⟨item, none, none⟩) }
        (lastOr none l) (firstOr none r) p = .ok q' ∧ Represents q' (l ++ (p, item) :: r) := by
  obtain ⟨q', hadd, hholds⟩ := tsQueueAdd_between h.toHolds hp
    (h.linked.frame hp (some ⟨item, none, none⟩)) (Function.update_self p _ q.nodes)
  exact ⟨q', hadd, h.insert hp (tsQueueAdd_samePlaces hadd) hholds rfl⟩

theorem Represents.enqueue (h : Represents q nodes) (hp : p ∉ pointers nodes)
    (item : Option Ptr) :
    ∃ q', tsQueueEnqueueNolock q item (some p) = .ok q' ∧
      Represents q' (nodes ++ [(p, item)]) := by
  obtain ⟨q', hadd, hrep⟩ := Represents.add (l := nodes) (r := [])
    (by rwa [List.append_nil]) (by rwa [List.append_nil]) item
  refine ⟨q', ?_, hrep⟩
  rw [tsQueueEnqueueNolock_eq (h.dead_iff.mpr hp), h.tail]
  exact hadd

theorem Represents.dequeue (h : Represents q nodes) :
    ∃ q', tsQueueDequeueNolock q = .ok q' ∧ Represents q' nodes.tail := by
  cases nodes with
  | nil =>
    refine ⟨q, ?_, h⟩
    rw [tsQueueDequeueNolock, if_pos (h.isEmpty.mpr rfl)]
  | cons c r =>
    obtain ⟨q', hremove, hrep⟩ := Represents.remove (l := []) h
    exact ⟨q', h.dequeue_eq.trans hremove, hrep⟩

theorem Represents.addAt {place : Nat} (h : Represents q nodes) (hplace : place ≤ nodes.length)
    (hp : p ∉ pointers nodes) (item : Option Ptr) :
    ∃ q', queueCall q (.add place item p) = .ok q' ∧
      Represents q' (nodes.take place ++ (p, item) :: nodes.drop place) := by
  have hsplit : nodes = nodes.take place ++ nodes.drop place := (List.take_append_drop _ _).symm
  have hlen : (nodes.take place).length = place := List.length_take_of_le hplace
  rw [hsplit] at h
  have hfresh : p ∉ pointers (nodes.take place ++ nodes.drop place) := by
    rw [← hsplit]
    exact hp
  obtain ⟨q', hadd, hrep⟩ := h.add hfresh item
  refine ⟨q', ?_, hrep⟩
  have hprev := h.before
  have hnext := h.nth
  rw [hlen] at hprev hnext
  rw [queueCall_add_eq (h.dead_iff.mpr hfresh), hprev, hnext]
  exact hadd

theorem Represents.removeAt {place : Nat} (h : Represents q nodes)
    (hplace : place < nodes.length) :
    ∃ q', queueCall q (.remove place) = .ok q' ∧ Represents q' (nodes.eraseIdx place) := by
  have hsplit : nodes = nodes.take place ++ nodes[place] :: nodes.drop (place + 1) := by
    rw [List.getElem_cons_drop, List.take_append_drop]
  have hlen : (nodes.take place).length = place := List.length_take_of_le (Nat.le_of_lt hplace)
  rw [List.eraseIdx_eq_take_drop_succ]
  generalize nodes[place] = c at hsplit
  rw [hsplit] at h
  obtain ⟨q', hremove, hrep⟩ := h.remove
  refine ⟨q', ?_, hrep⟩
  have hnode : q.nodes c.1 = some ⟨c.2, lastOr none (nodes.take place),
      firstOr none (nodes.drop (place + 1))⟩ := (linked_append.mp h.linked).2.1
  have hnth := h.nth
  rw [hlen] at hnth
  rw [queueCall, hnth, firstOr, deref_eq hnode, ok_bind]
  exact hremove

/-- Each operation does to the queue what it does to the list. -/
theorem queueCall_refines (h : Represents q nodes) (hop : listStep nodes op = some nodes') :
    ∃ q', queueCall q op = .ok q' ∧ Represents q' nodes' := by
  cases op with
  | enqueue item node =>
    simp only [listStep] at hop
    split at hop
    · cases hop
    · rename_i hfresh
      cases hop
      exact h.enqueue hfresh item
  | dequeue =>
    cases hop
    exact h.dequeue
  | add place item node =>
    simp only [listStep] at hop
    split at hop
    · rename_i hplace
      cases hop
      exact h.addAt hplace.1 hplace.2 item
    · cases hop
  | remove place =>
    simp only [listStep] at hop
    split at hop
    · rename_i hplace
      cases hop
      exact h.removeAt hplace
    · cases hop

end Steps

section Runs
variable {q : TsQueue} {nodes nodes' l₁ l₂ l₃ : List (Ptr × Option Ptr)} {op : QueueOp}
  {ks ls ops : List QueueOp} {p : Ptr}

theorem queueCalls_refines (h : Represents q nodes)
    (hrun : Lib.System.run listStep nodes ops = some nodes') :
    ∃ q', queueCalls q ops = .ok q' ∧ Represents q' nodes' := by
  induction ops generalizing q nodes with
  | nil =>
    cases hrun
    exact ⟨q, rfl, h⟩
  | cons op ops ih =>
    obtain ⟨m, hm, hrest⟩ := Lib.System.run_cons_eq_some.mp hrun
    obtain ⟨q₁, hcall, h₁⟩ := queueCall_refines h hm
    obtain ⟨q', hcalls, h'⟩ := ih h₁ hrest
    refine ⟨q', ?_, h'⟩
    rw [queueCalls, List.foldlM_cons, hcall]
    exact hcalls

/-- A node of the list was in it before or is a new one. -/
theorem listStep_mem (hop : listStep nodes op = some nodes') (hp : p ∈ pointers nodes') :
    p ∈ pointers nodes ∨ op.allocates = some p := by
  cases op with
  | enqueue item node =>
    simp only [listStep] at hop
    split at hop
    · cases hop
    · cases hop
      rw [pointers_append, List.mem_append, pointers_cons, pointers_nil, List.mem_singleton] at hp
      exact hp.imp_right fun heq => congrArg some heq.symm
  | dequeue =>
    cases hop
    exact Or.inl ((List.tail_sublist nodes).map Prod.fst |>.subset hp)
  | add place item node =>
    simp only [listStep] at hop
    split at hop
    · cases hop
      rw [pointers_append, List.mem_append, pointers_cons, List.mem_cons] at hp
      rcases hp with htake | rfl | hdrop
      · exact Or.inl ((List.take_sublist place nodes).map Prod.fst |>.subset htake)
      · exact Or.inr rfl
      · exact Or.inl ((List.drop_sublist place nodes).map Prod.fst |>.subset hdrop)
    · cases hop
  | remove place =>
    simp only [listStep] at hop
    split at hop
    · cases hop
      exact Or.inl ((List.eraseIdx_sublist nodes place).map Prod.fst |>.subset hp)
    · cases hop

theorem not_mem_of_run (hp : p ∉ pointers nodes) (hnew : ∀ op ∈ ops, op.allocates ≠ some p)
    (hrun : Lib.System.run listStep nodes ops = some nodes') : p ∉ pointers nodes' := by
  induction ops generalizing nodes with
  | nil =>
    cases hrun
    exact hp
  | cons op ops ih =>
    obtain ⟨m, hm, hrest⟩ := Lib.System.run_cons_eq_some.mp hrun
    refine ih ?_ (fun op hop => hnew op (List.mem_cons_of_mem _ hop)) hrest
    intro hmem
    rcases listStep_mem hm hmem with hold | halloc
    · exact hp hold
    · exact hnew op List.mem_cons_self halloc

/-- All along a run the queue is a well-formed list of its nodes. A step gives back the nodes
that it takes out of the list and no others, and none of them is met again before `malloc` has
made it a new node. -/
theorem queue_refines_list (h₁ : Lib.System.run listStep [] ks = some l₁)
    (hop : listStep l₁ op = some l₂) (h₂ : Lib.System.run listStep l₂ ls = some l₃) :
    ∃ q₁ q₂ q₃, queueCalls tsQueueNew ks = .ok q₁ ∧ queueCall q₁ op = .ok q₂ ∧
      queueCalls q₂ ls = .ok q₃ ∧ WellFormed q₁ l₁ ∧ WellFormed q₂ l₂ ∧ WellFormed q₃ l₃ ∧
      (∀ p, Freed q₁ q₂ p ↔ p ∈ pointers l₁ ∧ p ∉ pointers l₂) ∧
      ∀ p, Freed q₁ q₂ p → (∀ o ∈ ls, o.allocates ≠ some p) →
        q₃.nodes p = none ∧ p ∉ pointers l₃ := by
  obtain ⟨q₁, hcalls₁, hrep₁⟩ := queueCalls_refines .new h₁
  obtain ⟨q₂, hcall, hrep₂⟩ := queueCall_refines hrep₁ hop
  obtain ⟨q₃, hcalls₃, hrep₃⟩ := queueCalls_refines hrep₂ h₂
  refine ⟨q₁, q₂, q₃, hcalls₁, hcall, hcalls₃, hrep₁.wellFormed, hrep₂.wellFormed,
    hrep₃.wellFormed, ?_, ?_⟩
  · intro p
    exact and_congr (hrep₁.live p) hrep₂.dead_iff
  · intro p hfreed hnew
    have hgone := not_mem_of_run (hrep₂.dead_iff.mp hfreed.2) hnew h₂
    exact ⟨hrep₃.dead_iff.mpr hgone, hgone⟩

/-- Three nodes, of which the middle one is removed, and then the head. -/
theorem queue_refines_list_middle :
    ∃ q₁ q₂ q₃, queueCalls tsQueueNew [.enqueue (some 7) 1, .enqueue (some 8) 2,
        .add 1 none 3] = .ok q₁ ∧ queueCall q₁ (.remove 1) = .ok q₂ ∧
      queueCalls q₂ [.dequeue] = .ok q₃ ∧ WellFormed q₁ [(1, some 7), (3, none), (2, some 8)] ∧
      WellFormed q₂ [(1, some 7), (2, some 8)] ∧ WellFormed q₃ [(2, some 8)] ∧
      Freed q₁ q₂ 3 ∧ q₃.nodes 3 = none := by
  have hbuilt : Lib.System.run listStep []
      [.enqueue (some 7) 1, .enqueue (some 8) 2, .add 1 none 3] =
      some [(1, some 7), (3, none), (2, some 8)] := rfl
  have hremoved : listStep [(1, some 7), (3, none), (2, some 8)] (.remove 1) =
      some [(1, some 7), (2, some 8)] := rfl
  have hdequeued : Lib.System.run listStep [(1, some 7), (2, some 8)] [.dequeue] =
      some [(2, some 8)] := rfl
  obtain ⟨q₁, q₂, q₃, h₁, hop, h₂, hw₁, hw₂, hw₃, hfreed, hgone⟩ :=
    queue_refines_list hbuilt hremoved hdequeued
  have hthree : Freed q₁ q₂ 3 := (hfreed 3).mpr (by decide)
  exact ⟨q₁, q₂, q₃, h₁, hop, h₂, hw₁, hw₂, hw₃, hthree, (hgone 3 hthree (by decide)).1⟩

end Runs

end CPong
