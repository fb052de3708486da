import Mathlib.Data.List.Basic
import Mathlib.Data.List.Induction
import Mathlib.Logic.Function.Basic

/-!
# Doubly linked lists in memory

A cell is reached by its pointer and names its two neighbours. `Linked` lays a list out
along the cells of a memory; it splits at any seam, and a write to a cell outside the list
does not touch it.
-/

namespace Lib.Chain

set_option autoImplicit false

universe u
variable {α : Type u}

structure Cell (α : Type u) where
  data : α
  prev : Option Nat
  next : Option Nat
deriving DecidableEq, Repr

abbrev Cells (α : Type u) := Nat → Option (Cell α)

def firstOr (after : Option Nat) : List (Nat × α) → Option Nat
  | [] => after
  | c :: _ => some c.1

def lastOr (before : Option Nat) : List (Nat × α) → Option Nat
  | [] => before
  | c :: cs => lastOr (some c.1) cs

/-- The cells hold the list, between a cell `before` it and a cell `after` it. -/
def Linked (h : Cells α) : Option Nat → List (Nat × α) → Option Nat → Prop
  | _, [], _ => True
  | before, c :: cs, after =>
    h c.1 = some ⟨c.2, before, firstOr after cs⟩ ∧ Linked h (some c.1) cs after

def pointers (cs : List (Nat × α)) : List Nat := cs.map Prod.fst

/-- What is met on the way along `next` from `p` to the end of the chain, in at most `n` cells. -/
def follow (h : Cells α) : Nat → Option Nat → Option (List α)
  | _, none => some []
  | 0, some _ => none
  | n + 1, some p => do
    let c ← h p
    let rest ← follow h n c.next
    return c.data :: rest

/-- The cells on the way along `next` from `p` to the end of the chain, in at most `n` cells. -/
def forward (h : Cells α) : Nat → Option Nat → Option (List (Nat × α))
  | _, none => some []
  | 0, some _ => none
  | n + 1, some p => do
    let c ← h p
    let rest ← forward h n c.next
    return (p, c.data) :: rest

/-- The same along `prev`. -/
def backward (h : Cells α) : Nat → Option Nat → Option (List (Nat × α))
  | _, none => some []
  | 0, some _ => none
  | n + 1, some p => do
    let c ← h p
    let rest ← backward h n c.prev
    return (p, c.data) :: rest

variable {h h' : Cells α} {before before' after after' : Option Nat} {cs l r : List (Nat × α)}
  {p n : Nat} {x : α}

@[simp] theorem pointers_append (l r : List (Nat × α)) :
    pointers (l ++ r) = pointers l ++ pointers r :=
  List.map_append

@[simp] theorem pointers_cons (c : Nat × α) (r : List (Nat × α)) :
    pointers (c :: r) = c.1 :: pointers r :=
  rfl

@[simp] theorem pointers_nil : pointers ([] : List (Nat × α)) = [] := rfl

theorem firstOr_append (after : Option Nat) (l r : List (Nat × α)) :
    firstOr after (l ++ r) = firstOr (firstOr after r) l := by
  cases l with
  | nil => rfl
  | cons c l => rfl

theorem lastOr_append (before : Option Nat) (l r : List (Nat × α)) :
    lastOr before (l ++ r) = lastOr (lastOr before l) r := by
  induction l generalizing before with
  | nil => rfl
  | cons c l ih => exact ih (some c.1)

theorem lastOr_concat (before : Option Nat) (l : List (Nat × α)) (c : Nat × α) :
    lastOr before (l ++ [c]) = some c.1 :=
  lastOr_append before l [c]

theorem firstOr_eq_none : firstOr none cs = none ↔ cs = [] := by
  cases cs with
  | nil => simp [firstOr]
  | cons c cs => simp [firstOr]

theorem lastOr_eq_none : lastOr none cs = none ↔ cs = [] := by
  rcases List.eq_nil_or_concat' cs with rfl | ⟨l, c, rfl⟩
  · simp [lastOr]
  · simp [lastOr_concat]

/-- A list is two lists that name each other at the seam. -/
theorem linked_append :
    Linked h before (l ++ r) after ↔
      Linked h before l (firstOr after r) ∧ Linked h (lastOr before l) r after := by
  induction l generalizing before with
  | nil => simp [Linked, lastOr]
  | cons c l ih =>
    simp only [List.cons_append, Linked, firstOr_append, ih, lastOr, and_assoc]

theorem Linked.congr (hl : Linked h before cs after) (hh : ∀ p ∈ pointers cs, h' p = h p) :
    Linked h' before cs after := by
  induction cs generalizing before with
  | nil => trivial
  | cons c cs ih =>
    refine ⟨(hh c.1 List.mem_cons_self).trans hl.1, ?_⟩
    exact ih hl.2 fun p hp => hh p (List.mem_cons_of_mem _ hp)

theorem Linked.frame (hl : Linked h before cs after) (hp : p ∉ pointers cs)
    (c : Option (Cell α)) : Linked (Function.update h p c) before cs after := by
  apply hl.congr
  intro q hq
  apply Function.update_of_ne
  rintro rfl
  exact hp hq

theorem Linked.live (hl : Linked h before cs after) {c : Nat × α} (hc : c ∈ cs) :
    ∃ prev next, h c.1 = some ⟨c.2, prev, next⟩ := by
  induction cs generalizing before with
  | nil => simp at hc
  | cons d cs ih =>
    rcases List.mem_cons.mp hc with rfl | hc
    · exact ⟨_, _, hl.1⟩
    · exact ih hl.2 hc

theorem Linked.not_mem (hl : Linked h before cs after) (hp : h p = none) :
    p ∉ pointers cs := by
  intro hmem
  obtain ⟨c, hc, rfl⟩ := List.mem_map.mp hmem
  obtain ⟨prev, next, hlive⟩ := hl.live hc
  rw [hp] at hlive
  cases hlive

/-- The last cell of a list. -/
theorem Linked.last (hl : Linked h before (l ++ [(p, x)]) after) :
    h p = some ⟨x, lastOr before l, after⟩ :=
  (linked_append.mp hl).2.1

theorem Linked.set_next (hl : Linked h before (l ++ [(p, x)]) after) (hp : p ∉ pointers l)
    (after' : Option Nat) :
    Linked (Function.update h p (some ⟨x, lastOr before l, after'⟩)) before (l ++ [(p, x)])
      after' := by
  rw [linked_append] at hl ⊢
  exact ⟨hl.1.frame hp _, Function.update_self p _ h, trivial⟩

theorem Linked.set_prev (hl : Linked h before ((p, x) :: r) after) (hp : p ∉ pointers r)
    (before' : Option Nat) :
    Linked (Function.update h p (some ⟨x, before', firstOr after r⟩)) before' ((p, x) :: r)
      after :=
  ⟨Function.update_self p _ h, hl.2.frame hp _⟩

theorem not_mem_ends {a b : Nat × α} (hnodup : (pointers ((l ++ [a]) ++ b :: r)).Nodup) :
    b.1 ≠ a.1 ∧ (a.1 ∉ pointers l ∧ a.1 ∉ pointers (b :: r)) ∧
      b.1 ∉ pointers (l ++ [a]) ∧ b.1 ∉ pointers r := by
  simp only [pointers_append, pointers_cons, pointers_nil, List.nodup_append, List.nodup_cons,
    List.mem_append, List.mem_cons] at hnodup ⊢
  grind

/-- A cell put in at a seam, which its two neighbours then name. -/
theorem Linked.insert {a b : Nat × α} (hl : Linked h before ((l ++ [a]) ++ b :: r) after)
    (hnodup : (pointers ((l ++ [a]) ++ b :: r)).Nodup)
    (hp : p ∉ pointers ((l ++ [a]) ++ b :: r)) (x : α) :
    Linked (Function.update (Function.update (Function.update h
        a.1 (some ⟨a.2, lastOr before l, some p⟩)) b.1 (some ⟨b.2, some p, firstOr after r⟩))
        p (some ⟨x, some a.1, some b.1⟩)) before ((l ++ [a]) ++ (p, x) :: b :: r) after := by
  obtain ⟨-, ⟨hal, har⟩, hbl, hbr⟩ := not_mem_ends hnodup
  rw [pointers_append, List.mem_append, not_or] at hp
  obtain ⟨hleft, hright⟩ := linked_append.mp hl
  rw [lastOr_concat] at hright
  refine linked_append.mpr ⟨?_, ?_, ?_⟩
  · exact ((hleft.set_next hal (some p)).frame hbl _).frame hp.1 _
  · rw [lastOr_concat]
    exact Function.update_self p _ _
  · exact ((hright.frame har _).set_prev hbr (some p)).frame hp.2 _

/-- The way along `next` meets the list. -/
theorem Linked.follow (hl : Linked h before cs none) (hn : cs.length ≤ n) :
    follow h n (firstOr none cs) = some (cs.map Prod.snd) := by
  induction cs generalizing before n with
  | nil => cases n <;> rfl
  | cons c cs ih =>
    cases n with
    | zero => simp at hn
    | succ n =>
      have hrest := ih hl.2 (Nat.le_of_succ_le_succ hn)
      change ((h c.1).bind fun d => (Chain.follow h n d.next).bind _) = _
      rw [hl.1]
      change ((Chain.follow h n (firstOr none cs)).bind _) = _
      rw [hrest]
      rfl

theorem Linked.forward (hl : Linked h before cs none) :
    forward h cs.length (firstOr none cs) = some cs := by
  induction cs generalizing before with
  | nil => rfl
  | cons c cs ih =>
    change ((h c.1).bind fun d => (Chain.forward h cs.length d.next).bind _) = _
    rw [hl.1]
    change ((Chain.forward h cs.length (firstOr none cs)).bind _) = _
    rw [ih hl.2]
    rfl

theorem Linked.backward (hl : Linked h none cs after) :
    backward h cs.length (lastOr none cs) = some cs.reverse := by
  induction cs using List.reverseRecOn generalizing after with
  | nil => rfl
  | append_singleton cs c ih =>
    obtain ⟨hinit, hlast⟩ := linked_append.mp hl
    rw [lastOr_concat, List.length_append, List.reverse_append]
    change ((h c.1).bind fun d => (Chain.backward h cs.length d.prev).bind _) = _
    rw [hlast.1]
    change ((Chain.backward h cs.length (lastOr none cs)).bind _) = _
    rw [ih hinit]
    rfl

/-- The cell that the way along `next` comes to after `n` cells. -/
def nth (h : Cells α) : Nat → Option Nat → Option Nat
  | 0, p => p
  | n + 1, p => (p.bind h).bind fun c => nth h n c.next

theorem Linked.nth (hl : Linked h before (l ++ r) none) :
    nth h l.length (firstOr none (l ++ r)) = firstOr none r := by
  induction l generalizing before with
  | nil => rfl
  | cons c l ih =>
    change ((h c.1).bind fun d => Chain.nth h l.length d.next) = _
    rw [hl.1]
    exact ih hl.2

end Lib.Chain
