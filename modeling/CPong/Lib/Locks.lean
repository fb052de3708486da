import Mathlib.Data.Set.Insert

/-!
# Threads and mutexes

Every mutex guards a part of the store. A procedure locks what it needs, in the order of the
ranks, works on the parts it has locked, and gives them back. The single operations of the
threads are interleaved in any way.
-/

namespace Lib.Locks

set_option autoImplicit false

universe u v w x

/-- The parts of the store, one for each mutex. -/
abbrev Store {M : Type u} (D : M → Type v) := ∀ m, D m

/-- One operation of a thread with the variables `V`. -/
inductive Op (M : Type u) (D : M → Type v) (V : Type w) where
  | lock (m : M)
  | unlock (m : M)
  /-- reads or writes the part of the store that `m` guards -/
  | access (m : M) (f : V × D m → V × D m)
  /-- works on the thread's own variables -/
  | own (f : V → V)

section Operations
variable {M : Type u} {D : M → Type v} {V : Type w}

/-- There is a lock to come. -/
def entering : List (Op M D V) → Bool
  | [] => false
  | .lock _ :: _ => true
  | .unlock _ :: ops | .access _ _ :: ops | .own _ :: ops => entering ops

/-- No more locks: what is held is accessed and given back, all of it. -/
def Releasing (held : Set M) : List (Op M D V) → Prop
  | [] => held = ∅
  | .lock _ :: _ => False
  | .unlock m :: ops => m ∈ held ∧ Releasing (held \ {m}) ops
  | .access m _ :: ops => m ∈ held ∧ Releasing held ops
  | .own _ :: ops => Releasing held ops

/-- The locks come first, each of a higher rank than those held, with nothing but the thread's
own work before them. -/
def Disciplined (rank : M → Nat) (held : Set M) : List (Op M D V) → Prop
  | .lock m :: ops => (∀ m' ∈ held, rank m' < rank m) ∧ Disciplined rank (insert m held) ops
  | .own _ :: ops => Disciplined rank held ops
  | ops => Releasing held ops

variable [DecidableEq M]

/-- The operations by themselves, without the locks. -/
def execute : List (Op M D V) → V × Store D → V × Store D
  | [], c => c
  | .lock _ :: ops, c => execute ops c
  | .unlock _ :: ops, c => execute ops c
  | .access m f :: ops, (v, store) =>
    execute ops ((f (v, store m)).1, Function.update store m (f (v, store m)).2)
  | .own f :: ops, (v, store) => execute ops (f v, store)

variable {rank : M → Nat} {held : Set M} {ops : List (Op M D V)} {store store' : Store D} {v : V}
  {m : M}

omit [DecidableEq M] in
theorem Releasing.not_entering (h : Releasing held ops) : entering ops = false := by
  induction ops generalizing held with
  | nil => rfl
  | cons op ops ih =>
    cases op with
    | lock m => exact absurd h id
    | unlock m => exact ih h.2
    | access m f => exact ih h.2
    | own f => exact ih h

omit [DecidableEq M] in
theorem Releasing.disciplined (h : Releasing held ops) : Disciplined rank held ops := by
  induction ops generalizing held with
  | nil => exact h
  | cons op ops ih =>
    cases op with
    | lock m => exact absurd h id
    | own f => exact ih h
    | _ => exact h

omit [DecidableEq M] in
theorem Disciplined.releasing (h : Disciplined rank held ops) (hops : entering ops = false) :
    Releasing held ops := by
  induction ops generalizing held with
  | nil => exact h
  | cons op ops ih =>
    cases op with
    | lock m => cases hops
    | own f => exact ih h hops
    | _ => exact h

/-- What is not held stays as it is. -/
theorem Releasing.frame (h : Releasing held ops) (v : V) (store : Store D) (hm : m ∉ held) :
    (execute ops (v, store)).2 m = store m := by
  induction ops generalizing held v store with
  | nil => rfl
  | cons op ops ih =>
    cases op with
    | lock n => exact absurd h id
    | unlock n => exact ih h.2 v store fun hmem => hm hmem.1
    | access n f =>
      have hne : m ≠ n := by
        rintro rfl
        exact hm h.1
      rw [execute, ih h.2 _ _ hm, Function.update_of_ne hne]
    | own f => exact ih h _ _ hm

/-- What is not held has no influence. -/
theorem Releasing.congr (h : Releasing held ops) (v : V) (heq : ∀ m ∈ held, store m = store' m) :
    (execute ops (v, store)).1 = (execute ops (v, store')).1 ∧
      ∀ m ∈ held, (execute ops (v, store)).2 m = (execute ops (v, store')).2 m := by
  induction ops generalizing held v store store' with
  | nil => exact ⟨rfl, heq⟩
  | cons op ops ih =>
    cases op with
    | lock n => exact absurd h id
    | unlock n =>
      obtain ⟨hvars, hstore⟩ := ih h.2 v fun m hm => heq m hm.1
      refine ⟨hvars, fun m hm => ?_⟩
      by_cases hmn : m = n
      · have hfree : m ∉ held \ {n} := fun hmem => hmem.2 hmn
        simp only [execute]
        rw [h.2.frame v store hfree, h.2.frame v store' hfree, heq m hm]
      · exact hstore m ⟨hm, hmn⟩
    | access n f =>
      simp only [execute]
      rw [heq n h.1]
      apply ih h.2
      intro m hm
      by_cases hmn : m = n
      · subst hmn
        rw [Function.update_self, Function.update_self]
      · rw [Function.update_of_ne hmn, Function.update_of_ne hmn, heq m hm]
    | own f => exact ih h _ heq

end Operations

/-- A thread with its variables, the procedure it has begun last, the variables it had then, and
what is left of the procedure. -/
structure Thread (M : Type u) (D : M → Type v) (V : Type w) (P : Type x) where
  vars : V
  proc : Option P
  base : V
  rest : List (Op M D V)

variable {T M : Type u} {D : M → Type v} {V : T → Type w} {P : T → Type x}

structure Machine (D : M → Type v) (V : T → Type w) (P : T → Type x) where
  store : Store D
  owner : M → Option T
  threads : ∀ t, Thread M D (V t) (P t)
  /-- the procedures, in the order in which they got their last lock -/
  order : List (Σ t, P t)

inductive Action (P : T → Type x) where
  | call (t : T) (p : P t)
  | next (t : T)

/-- The call that the thread is still getting the locks for. -/
def waiting (s : Machine D V P) (t : T) : List (Σ t, P t) :=
  if entering (s.threads t).rest then (s.threads t).proc.toList.map (Sigma.mk t) else []

/-- What is left of the procedure, once it has its locks. -/
def committed (s : Machine D V P) (t : T) : List (Op M D (V t)) :=
  if entering (s.threads t).rest then [] else (s.threads t).rest

/-- The variables without what a procedure does before it has its locks. -/
def point (s : Machine D V P) (t : T) : V t :=
  if entering (s.threads t).rest then (s.threads t).base else (s.threads t).vars

def Idle (s : Machine D V P) : Prop := ∀ t, (s.threads t).rest = []

def holding (owner : M → Option T) (t : T) : Set M := {m | owner m = some t}

/-- All threads keep to the discipline from here on. -/
def Sound (rank : M → Nat) (s : Machine D V P) : Prop :=
  ∀ t, Disciplined rank (holding s.owner t) (s.threads t).rest

/-- A thread that has just called or locked has its place in the order once it is past its last
lock. -/
def Machine.enter (s : Machine D V P) (t : T) : Machine D V P :=
  if entering (s.threads t).rest then s
  else { s with order := s.order ++ (s.threads t).proc.toList.map (Sigma.mk t) }

def start (vars : ∀ t, V t) (store : Store D) : Machine D V P :=
  { store := store
    owner := fun _ => none
    threads := fun t => ⟨vars t, none, vars t, []⟩
    order := [] }

@[simp] theorem enter_threads (s : Machine D V P) (t : T) : (s.enter t).threads = s.threads := by
  unfold Machine.enter
  split_ifs <;> rfl

@[simp] theorem enter_owner (s : Machine D V P) (t : T) : (s.enter t).owner = s.owner := by
  unfold Machine.enter
  split_ifs <;> rfl

@[simp] theorem enter_store (s : Machine D V P) (t : T) : (s.enter t).store = s.store := by
  unfold Machine.enter
  split_ifs <;> rfl

variable [DecidableEq T] [DecidableEq M]

/-- `code t p v` is what thread `t` does for the procedure `p` if its variables are `v`; `none`
where it is not at such a call. -/
abbrev Code (D : M → Type v) (V : T → Type w) (P : T → Type x) :=
  ∀ t, P t → V t → Option (List (Op M D (V t)))

variable (code : Code D V P)

def Machine.proceed (s : Machine D V P) (t : T) (thread : Thread M D (V t) (P t)) :
    Machine D V P :=
  { s with threads := Function.update s.threads t thread }

def step (s : Machine D V P) : Action P → Option (Machine D V P)
  | .call t p =>
    match (s.threads t).rest with
    | [] => (code t p (s.threads t).vars).map fun ops =>
        (s.proceed t ⟨(s.threads t).vars, some p, (s.threads t).vars, ops⟩).enter t
    | _ :: _ => none
  | .next t =>
    match (s.threads t).rest with
    | [] => none
    | .lock m :: ops =>
      if s.owner m = none then
        some (({ s with owner := Function.update s.owner m (some t) }.proceed t
          { s.threads t with rest := ops }).enter t)
      else none
    | .unlock m :: ops =>
      if s.owner m = some t then
        some ({ s with owner := Function.update s.owner m none }.proceed t
          { s.threads t with rest := ops })
      else none
    | .access m f :: ops =>
      let c := f ((s.threads t).vars, s.store m)
      some ({ s with store := Function.update s.store m c.2 }.proceed t
        { s.threads t with vars := c.1, rest := ops })
    | .own f :: ops =>
      some (s.proceed t { s.threads t with vars := f (s.threads t).vars, rest := ops })

/-- What one step does. -/
inductive Move (s : Machine D V P) : Action P → Machine D V P → Prop where
  | call (t : T) (p : P t) (ops : List (Op M D (V t))) (hidle : (s.threads t).rest = [])
      (hcode : code t p (s.threads t).vars = some ops) :
      Move s (.call t p)
        ((s.proceed t ⟨(s.threads t).vars, some p, (s.threads t).vars, ops⟩).enter t)
  | lock (t : T) (m : M) (ops : List (Op M D (V t))) (hrest : (s.threads t).rest = .lock m :: ops)
      (hfree : s.owner m = none) :
      Move s (.next t) (({ s with owner := Function.update s.owner m (some t) }.proceed t
        { s.threads t with rest := ops }).enter t)
  | unlock (t : T) (m : M) (ops : List (Op M D (V t)))
      (hrest : (s.threads t).rest = .unlock m :: ops) (hheld : s.owner m = some t) :
      Move s (.next t) ({ s with owner := Function.update s.owner m none }.proceed t
        { s.threads t with rest := ops })
  | access (t : T) (m : M) (f : V t × D m → V t × D m) (ops : List (Op M D (V t)))
      (hrest : (s.threads t).rest = .access m f :: ops) :
      Move s (.next t)
        ({ s with store := Function.update s.store m (f ((s.threads t).vars, s.store m)).2 }.proceed
          t { s.threads t with vars := (f ((s.threads t).vars, s.store m)).1, rest := ops })
  | own (t : T) (f : V t → V t) (ops : List (Op M D (V t)))
      (hrest : (s.threads t).rest = .own f :: ops) :
      Move s (.next t) (s.proceed t { s.threads t with vars := f (s.threads t).vars, rest := ops })

variable {code} {rank : M → Nat} {s s' : Machine D V P} {l : Action P} {t t' : T} {m : M}

theorem step_move (h : step code s l = some s') : Move code s l s' := by
  cases l with
  | call t p =>
    cases hrest : (s.threads t).rest with
    | nil =>
      simp only [step, hrest, Option.map_eq_some_iff] at h
      obtain ⟨ops, hcode, rfl⟩ := h
      exact .call t p ops hrest hcode
    | cons op ops =>
      simp only [step, hrest] at h
      cases h
  | next t =>
    cases hrest : (s.threads t).rest with
    | nil =>
      simp only [step, hrest] at h
      cases h
    | cons op ops =>
      cases op with
      | lock m =>
        simp only [step, hrest, Option.ite_none_right_eq_some, Option.some.injEq] at h
        obtain ⟨hfree, rfl⟩ := h
        exact .lock t m ops hrest hfree
      | unlock m =>
        simp only [step, hrest, Option.ite_none_right_eq_some, Option.some.injEq] at h
        obtain ⟨hheld, rfl⟩ := h
        exact .unlock t m ops hrest hheld
      | access m f =>
        simp only [step, hrest, Option.some.injEq] at h
        subst h
        exact .access t m f ops hrest
      | own f =>
        simp only [step, hrest, Option.some.injEq] at h
        subst h
        exact .own t f ops hrest

omit [DecidableEq M] in
@[simp] theorem proceed_self (s : Machine D V P) (t : T) (thread : Thread M D (V t) (P t)) :
    (s.proceed t thread).threads t = thread :=
  Function.update_self ..

omit [DecidableEq M] in
theorem proceed_of_ne (s : Machine D V P) (thread : Thread M D (V t) (P t)) (h : t' ≠ t) :
    (s.proceed t thread).threads t' = s.threads t' :=
  Function.update_of_ne h ..

theorem holding_lock {owner : M → Option T} (hfree : owner m = none) (t t' : T) :
    holding (Function.update owner m (some t)) t' =
      if t' = t then insert m (holding owner t') else holding owner t' := by
  ext n
  by_cases hn : n = m
  · subst hn
    by_cases ht : t' = t
    · simp [holding, ht]
    · simp [holding, ht, hfree, Ne.symm ht]
  · by_cases ht : t' = t
    · simp [holding, ht, hn]
    · simp [holding, ht, hn]

theorem holding_unlock {owner : M → Option T} (hheld : owner m = some t) (t' : T) :
    holding (Function.update owner m none) t' =
      if t' = t then holding owner t' \ {m} else holding owner t' := by
  ext n
  by_cases hn : n = m
  · subst hn
    by_cases ht : t' = t
    · simp [holding, ht]
    · simp [holding, ht, hheld, Ne.symm ht]
  · by_cases ht : t' = t
    · simp [holding, ht, hn]
    · simp [holding, ht, hn]

omit [DecidableEq T] [DecidableEq M] in
theorem Sound.start (vars : ∀ t, V t) (store : Store D) :
    Sound rank (start vars store : Machine D V P) := by
  intro t
  exact Set.eq_empty_of_forall_notMem fun m hm => by cases hm

omit [DecidableEq T] [DecidableEq M] in
theorem Sound.idle (h : Sound rank s) (hrest : (s.threads t).rest = []) :
    holding s.owner t = ∅ := by
  have ht := h t
  rwa [hrest] at ht

omit [DecidableEq T] [DecidableEq M] in
theorem Sound.free (h : Sound rank s) (hidle : Idle s) (m : M) : s.owner m = none := by
  cases howner : s.owner m with
  | none => rfl
  | some t =>
    have hmem : m ∈ holding s.owner t := howner
    rw [h.idle (hidle t)] at hmem
    cases hmem

omit [DecidableEq M] in
/-- The step of one thread leaves the discipline of the others. -/
theorem Sound.of_thread {thread : Thread M D (V t) (P t)} (owner : M → Option T)
    (store : Store D) (h : Sound rank s)
    (hself : Disciplined rank (holding owner t) thread.rest)
    (hother : ∀ t', t' ≠ t → holding owner t' = holding s.owner t') :
    Sound rank ({ s with store := store, owner := owner }.proceed t thread) := by
  intro t'
  by_cases ht : t' = t
  · subst ht
    rw [proceed_self]
    exact hself
  · rw [proceed_of_ne _ _ ht]
    change Disciplined rank (holding owner t') _
    rw [hother t' ht]
    exact h t'

omit [DecidableEq T] [DecidableEq M] in
theorem sound_enter : Sound rank (s.enter t) ↔ Sound rank s := by
  unfold Sound
  rw [enter_owner, enter_threads]

theorem Sound.step (hcode : ∀ t p v ops, code t p v = some ops → Disciplined rank ∅ ops)
    (h : Sound rank s) (hstep : step code s l = some s') : Sound rank s' := by
  cases step_move hstep with
  | call t p ops hidle hops =>
    apply sound_enter.mpr
    refine Sound.of_thread s.owner s.store h ?_ fun _ _ => rfl
    rw [h.idle hidle]
    exact hcode t p _ ops hops
  | lock t m ops hrest hfree =>
    apply sound_enter.mpr
    refine Sound.of_thread _ s.store h ?_ fun t' ht => ?_
    · have ht := h t
      rw [hrest] at ht
      rw [holding_lock hfree, if_pos rfl]
      exact ht.2
    · rw [holding_lock hfree, if_neg ht]
  | unlock t m ops hrest hheld =>
    refine Sound.of_thread _ s.store h ?_ fun t' ht => ?_
    · have ht := h t
      rw [hrest] at ht
      rw [holding_unlock hheld, if_pos rfl]
      exact Releasing.disciplined ht.2
    · rw [holding_unlock hheld, if_neg ht]
  | access t m f ops hrest =>
    refine Sound.of_thread s.owner _ h ?_ fun _ _ => rfl
    have ht := h t
    rw [hrest] at ht
    exact Releasing.disciplined ht.2
  | own t f ops hrest =>
    refine Sound.of_thread s.owner s.store h ?_ fun _ _ => rfl
    have ht := h t
    rw [hrest] at ht
    exact ht

end Lib.Locks
