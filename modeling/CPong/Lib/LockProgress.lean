import CPong.Lib.Locks
import CPong.Lib.System
import Mathlib.Algebra.BigOperators.Group.Finset.Basic
import Mathlib.Data.Fintype.Defs

/-!
# Nobody waits for ever

The ranks of the mutexes rule out a deadlock, and the procedures that have begun end.
-/

namespace Lib.Locks

set_option autoImplicit false

universe u v w x
variable {T M : Type u} {D : M → Type v} {V : T → Type w} {P : T → Type x} [DecidableEq T]
  [DecidableEq M] {code : Code D V P} {rank : M → Nat} {s s' : Machine D V P} {l : Action P}
  {t t' : T} {m : M}

/-- A thread that cannot go on is at a mutex that another thread holds. -/
theorem next_or_blocked (hs : Sound rank s) (hbusy : (s.threads t).rest ≠ []) :
    (∃ s', step code s (.next t) = some s') ∨
      ∃ m ops t', (s.threads t).rest = .lock m :: ops ∧ s.owner m = some t' := by
  have ht := hs t
  cases hrest : (s.threads t).rest with
  | nil => exact absurd hrest hbusy
  | cons op ops =>
    rw [hrest] at ht
    cases op with
    | lock m =>
      cases howner : s.owner m with
      | none =>
        left
        simp only [step, hrest, howner, if_true]
        exact ⟨_, rfl⟩
      | some t' => exact Or.inr ⟨m, ops, t', rfl, howner⟩
    | unlock m =>
      left
      have howner : s.owner m = some t := ht.1
      simp only [step, hrest, howner, if_true]
      exact ⟨_, rfl⟩
    | access m f =>
      left
      simp only [step, hrest]
      exact ⟨_, rfl⟩
    | own f =>
      left
      simp only [step, hrest]
      exact ⟨_, rfl⟩

omit [DecidableEq T] [DecidableEq M] in
/-- Who holds a mutex that is waited for waits, if at all, for one of a higher rank. -/
theorem Sound.rank_lt {m' : M} {ops : List (Op M D (V t))} (hs : Sound rank s)
    (hheld : s.owner m = some t) (hrest : (s.threads t).rest = .lock m' :: ops) :
    rank m < rank m' := by
  have ht := hs t
  rw [hrest] at ht
  exact ht.1 m hheld

omit [DecidableEq T] [DecidableEq M] in
theorem Sound.busy (hs : Sound rank s) (hheld : s.owner m = some t) :
    (s.threads t).rest ≠ [] := by
  intro hrest
  have hmem : m ∈ holding s.owner t := hheld
  rw [hs.idle hrest] at hmem
  cases hmem

/-- There is no deadlock: as long as there is a procedure that has begun and not ended, some
thread can go on. -/
theorem exists_next (code : Code D V P) {top : Nat} (htop : ∀ m, rank m ≤ top) (hs : Sound rank s)
    (hbusy : ¬ Idle s) : ∃ t s', step code s (.next t) = some s' := by
  have hchain : ∀ n m t, top - rank m < n → s.owner m = some t →
      ∃ t s', step code s (.next t) = some s' := by
    intro n
    induction n with
    | zero =>
      intro m t hn
      exact absurd hn (Nat.not_lt_zero _)
    | succ n ih =>
      intro m t hn hheld
      rcases next_or_blocked hs (hs.busy hheld) with hnext | ⟨m', ops, t', hrest, hheld'⟩
      · exact ⟨t, hnext⟩
      · have hlt := hs.rank_lt hheld hrest
        have hle := htop m'
        exact ih m' t' (by omega) hheld'
  obtain ⟨t, ht⟩ := not_forall.mp hbusy
  rcases next_or_blocked hs ht with hnext | ⟨m, ops, t', -, hheld⟩
  · exact ⟨t, hnext⟩
  · exact hchain _ m t' (Nat.lt_succ_self _) hheld

section Work
variable [Fintype T]

/-- The operations that are left to do. -/
def work (s : Machine D V P) : Nat := ∑ t, (s.threads t).rest.length

omit [DecidableEq M] in
theorem work_proceed {s₁ : Machine D V P} {thread : Thread M D (V t) (P t)} {op : Op M D (V t)}
    {ops : List (Op M D (V t))} (hrest : (s.threads t).rest = op :: ops)
    (hthread : thread.rest = ops) (hsame : s₁.threads = s.threads) :
    work (s₁.proceed t thread) + 1 = work s := by
  unfold work
  rw [← Finset.add_sum_erase _ _ (Finset.mem_univ t),
    ← Finset.add_sum_erase Finset.univ (fun t => (s.threads t).rest.length) (Finset.mem_univ t),
    proceed_self, hrest, hthread, List.length_cons]
  have hothers : ∑ t' ∈ Finset.univ.erase t, ((s₁.proceed t thread).threads t').rest.length =
      ∑ t' ∈ Finset.univ.erase t, (s.threads t').rest.length := by
    refine Finset.sum_congr rfl fun t' ht' => ?_
    rw [proceed_of_ne _ _ (Finset.ne_of_mem_erase ht'), hsame]
  omega

omit [DecidableEq T] [DecidableEq M] in
theorem work_enter (s : Machine D V P) (t : T) : work (s.enter t) = work s := by
  unfold work
  rw [enter_threads]

theorem work_next (h : step code s (.next t) = some s') : work s' + 1 = work s := by
  cases step_move h with
  | lock _ m ops hrest hfree =>
    rw [work_enter]
    exact work_proceed hrest rfl rfl
  | unlock _ m ops hrest hheld => exact work_proceed hrest rfl rfl
  | access _ m f ops hrest => exact work_proceed hrest rfl rfl
  | own _ f ops hrest => exact work_proceed hrest rfl rfl

omit [DecidableEq T] [DecidableEq M] in
theorem idle_iff_work : Idle s ↔ work s = 0 := by
  simp [Idle, work]

/-- The procedures that have begun come to their end, in whatever order the threads go on. -/
theorem work_run {ts : List T}
    (h : System.run (step code) s (ts.map .next) = some s') : ts.length + work s' = work s :=
  System.run_measure (fun _ _ _ => work_next) h

theorem exists_idle (hcode : ∀ t p v ops, code t p v = some ops → Disciplined rank ∅ ops)
    {top : Nat} (htop : ∀ m, rank m ≤ top) (hs : Sound rank s) :
    ∃ (ts : List T) (s' : Machine D V P),
      System.run (step code) s (ts.map .next) = some s' ∧ Idle s' := by
  have hgo : ∀ s : Machine D V P, Sound rank s → work s ≠ 0 →
      ∃ t s', step code s (.next t) = some s' := by
    intro s hs hwork
    exact exists_next code htop hs fun hidle => hwork (idle_iff_work.mp hidle)
  have hnext : ∀ s t s', Sound rank s → step code s (.next t) = some s' →
      Sound rank s' ∧ work s' < work s := by
    intro s t s' hs hstep
    have hone := work_next hstep
    exact ⟨Sound.step hcode hs hstep, by omega⟩
  obtain ⟨ts, s', hrun, hzero⟩ := System.exists_run_to_zero hnext hgo hs
  exact ⟨ts, s', hrun, idle_iff_work.mpr hzero⟩

end Work

end Lib.Locks
