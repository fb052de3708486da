import CPong.Lib.Words

/-!
# Guarded access to a block of memory

A block is a list of bytes. Reading or writing a range is defined only where the
whole range lies inside the block.
-/

namespace Lib.Memory

set_option autoImplicit false

open Words (Byte)

/-- Why a call does not return: an access outside its block, or an environment that has
not answered it. -/
inductive Fault where
  | outOfBounds
  | blocked
deriving DecidableEq, Repr

abbrev Guarded := Except Fault

def guardRange (block : List Byte) (i len : Nat) : Guarded Unit :=
  if i + len ≤ block.length then .ok () else .error .outOfBounds

def overwrite (block : List Byte) (i : Nat) (bs : List Byte) : List Byte :=
  block.take i ++ bs ++ block.drop (i + bs.length)

def writeAt (block : List Byte) (i : Nat) (bs : List Byte) : Guarded (List Byte) := do
  guardRange block i bs.length
  return overwrite block i bs

def readAt (block : List Byte) (i len : Nat) : Guarded (List Byte) := do
  guardRange block i len
  return (block.drop i).take len

@[simp] theorem ok_bind {α β : Type} (a : α) (f : α → Guarded β) : (.ok a >>= f) = f a := rfl

@[simp] theorem pure_eq_ok {α : Type} (a : α) : (pure a : Guarded α) = .ok a := rfl

theorem bind_eq_ok {α β : Type} {access : Guarded α} {f : α → Guarded β} {b : β} :
    (access >>= f) = .ok b ↔ ∃ a, access = .ok a ∧ f a = .ok b := by
  cases access with
  | ok a => simp only [ok_bind, Except.ok.injEq, exists_eq_left']
  | error fault =>
    constructor
    · intro h
      cases h
    · intro h
      obtain ⟨a, ha, -⟩ := h
      cases ha

theorem guardRange_eq_ok {block : List Byte} {i len : Nat} (h : i + len ≤ block.length) :
    guardRange block i len = .ok () :=
  if_pos h

theorem le_of_guardRange {block : List Byte} {i len : Nat}
    (h : guardRange block i len = .ok ()) : i + len ≤ block.length := by
  by_contra hlong
  rw [guardRange, if_neg hlong] at h
  cases h

theorem overwrite_append (pre old post bs : List Byte) (h : old.length = bs.length) :
    overwrite (pre ++ (old ++ post)) pre.length bs = pre ++ (bs ++ post) := by
  simp [overwrite, ← h]

theorem length_overwrite {block : List Byte} {i : Nat} {bs : List Byte}
    (h : i + bs.length ≤ block.length) : (overwrite block i bs).length = block.length := by
  simp only [overwrite, List.length_append, List.length_take, List.length_drop]
  omega

theorem overwrite_overwrite {block : List Byte} {i : Nat} (xs ys : List Byte)
    (h : i + xs.length ≤ block.length) :
    overwrite (overwrite block i xs) (i + xs.length) ys = overwrite block i (xs ++ ys) := by
  have hpre : (block.take i ++ xs).length = i + xs.length := by
    rw [List.length_append, List.length_take]
    omega
  have hdrop : (block.take i ++ xs ++ block.drop (i + xs.length)).drop
      (i + xs.length + ys.length) = block.drop (i + (xs ++ ys).length) := by
    rw [← hpre, List.drop_length_add_append, List.drop_drop, hpre, List.length_append,
      Nat.add_assoc]
  rw [overwrite, overwrite, List.take_left' hpre, hdrop, overwrite, List.append_assoc]
  simp only [List.append_assoc]

theorem writeAt_replace (pre old post bs : List Byte) (h : old.length = bs.length) :
    writeAt (pre ++ (old ++ post)) pre.length bs = .ok (pre ++ (bs ++ post)) := by
  have hguard : pre.length + bs.length ≤ (pre ++ (old ++ post)).length := by
    simp only [List.length_append]
    omega
  simp only [writeAt, guardRange_eq_ok hguard, ok_bind, pure_eq_ok,
    overwrite_append pre old post bs h]

theorem writeAt_append (used free bs : List Byte) (h : bs.length ≤ free.length) :
    writeAt (used ++ free) used.length bs = .ok (used ++ (bs ++ free.drop bs.length)) := by
  have hlen : (free.take bs.length).length = bs.length := by simpa using h
  have hwrite := writeAt_replace used (free.take bs.length) (free.drop bs.length) bs hlen
  rwa [List.take_append_drop] at hwrite

theorem readAt_append (pre bs post : List Byte) :
    readAt (pre ++ (bs ++ post)) pre.length bs.length = .ok bs := by
  have hguard : pre.length + bs.length ≤ (pre ++ (bs ++ post)).length := by
    simp only [List.length_append]
    omega
  simp [readAt, guardRange_eq_ok hguard]

end Lib.Memory
