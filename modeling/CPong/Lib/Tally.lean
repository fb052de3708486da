import Mathlib.Algebra.BigOperators.Group.List.Basic

/-!
# Tallies

The history of an accumulator: the amounts that were added to it since it was last
cleared, each with a tag. Nothing is recorded for an amount of zero.
-/

namespace Lib.Tally

set_option autoImplicit false

universe u v

structure Entry (τ : Type u) (α : Type v) where
  tag : τ
  amount : α
deriving DecidableEq, Repr

variable {τ : Type u} {α : Type v} [AddMonoid α] [DecidableEq α]

def record (entries : List (Entry τ α)) (entry : Entry τ α) : List (Entry τ α) :=
  if entry.amount = 0 then entries else entries ++ [entry]

omit [DecidableEq α] in
def total (entries : List (Entry τ α)) : α := (entries.map Entry.amount).sum

omit [DecidableEq α] in
@[simp] theorem total_nil : total ([] : List (Entry τ α)) = 0 := rfl

theorem total_record (entries : List (Entry τ α)) (entry : Entry τ α) :
    total (record entries entry) = total entries + entry.amount := by
  unfold record
  by_cases h : entry.amount = 0
  · rw [if_pos h, h, add_zero]
  · rw [if_neg h, total, List.map_append, List.sum_append]
    simp [total]

theorem mem_record_of_mem {entries : List (Entry τ α)} {entry e : Entry τ α} (h : e ∈ entries) :
    e ∈ record entries entry := by
  unfold record
  by_cases h0 : entry.amount = 0
  · rwa [if_pos h0]
  · rw [if_neg h0]
    exact List.mem_append_left _ h

theorem mem_record {entries : List (Entry τ α)} {entry e : Entry τ α}
    (h : e ∈ record entries entry) : e ∈ entries ∨ e = entry ∧ entry.amount ≠ 0 := by
  unfold record at h
  by_cases h0 : entry.amount = 0
  · rw [if_pos h0] at h
    exact Or.inl h
  · rw [if_neg h0] at h
    rcases List.mem_append.mp h with h | h
    · exact Or.inl h
    · exact Or.inr ⟨List.mem_singleton.mp h, h0⟩

end Lib.Tally
