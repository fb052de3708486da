import CPong.Lib.Locks
import CPong.Lib.System

/-!
# One procedure after the other

Whatever the threads do comes to their procedures one after the other, in the order in which
they get their last lock.
-/

namespace Lib.Locks

set_option autoImplicit false

universe u v w x
variable {T M : Type u} {D : M → Type v} {V : T → Type w} {P : T → Type x} [DecidableEq T]
  [DecidableEq M] {code : Code D V P} {rank : M → Nat} {s s' : Machine D V P} {l : Action P}
  {t t' : T} {m : M}

/-- The threads between their procedures. -/
structure Serial (D : M → Type v) (V : T → Type w) where
  vars : ∀ t, V t
  store : Store D

/-- A whole procedure at once. -/
def serialStep (code : Code D V P) (a : Serial D V) (call : Σ t, P t) : Option (Serial D V) :=
  (code call.1 call.2 (a.vars call.1)).map fun ops =>
    let c := execute ops (a.vars call.1, a.store)
    ⟨Function.update a.vars call.1 c.1, c.2⟩

theorem serialStep_eq_some {a a' : Serial D V} {p : P t}
    (h : serialStep code a ⟨t, p⟩ = some a') :
    ∃ ops, code t p (a.vars t) = some ops ∧ a'.vars t = (execute ops (a.vars t, a.store)).1 ∧
      (∀ t', t' ≠ t → a'.vars t' = a.vars t') ∧
      a'.store = (execute ops (a.vars t, a.store)).2 := by
  obtain ⟨ops, hops, rfl⟩ := Option.map_eq_some_iff.mp h
  refine ⟨ops, hops, ?_, fun t' ht => ?_, rfl⟩
  · simp only [Function.update_self]
  · simp only [Function.update_of_ne ht]

/-- `a` is the store and the variables `now` with the operations of `todo` done. -/
structure Settles (todo : ∀ t, List (Op M D (V t))) (now : ∀ t, V t) (owner : M → Option T)
    (store : Store D) (a : Serial D V) : Prop where
  vars : ∀ t, a.vars t = (execute (todo t) (now t, store)).1
  free : ∀ m, owner m = none → a.store m = store m
  held : ∀ m t, owner m = some t → a.store m = (execute (todo t) (now t, store)).2 m

section Settles
variable {todo : ∀ t, List (Op M D (V t))} {now : ∀ t, V t} {owner owner' : M → Option T}
  {store store' : Store D} {a : Serial D V} {all ops : List (Op M D (V t))} {v : V t}

/-- The whole procedure is done when the last lock is taken. -/
theorem Settles.commit (h : Settles todo now owner store a) (ht : todo t = [])
    (hops : Releasing (holding owner t) ops)
    (hall : ∀ store, execute all (now t, store) = execute ops (v, store)) :
    Settles (Function.update todo t ops) (Function.update now t v) owner store
      ⟨Function.update a.vars t (execute all (a.vars t, a.store)).1,
        (execute all (a.vars t, a.store)).2⟩ := by
  have hvars : a.vars t = now t := by
    rw [h.vars t, ht]
    rfl
  have hstore : ∀ m ∈ holding owner t, a.store m = store m := by
    intro m hm
    rw [h.held m t hm, ht]
    rfl
  obtain ⟨hvars', hstore'⟩ := hops.congr v hstore
  rw [hvars, hall]
  refine ⟨fun t' => ?_, fun m hm => ?_, fun m t' hm => ?_⟩
  · by_cases htt : t' = t
    · subst htt
      simp only [Function.update_self]
      exact hvars'
    · simp only [Function.update_of_ne htt]
      exact h.vars t'
  · have hnot : m ∉ holding owner t := fun hmem => by
      rw [holding, Set.mem_ofPred_eq, hm] at hmem
      cases hmem
    exact (hops.frame _ _ hnot).trans (h.free m hm)
  · by_cases htt : t' = t
    · subst htt
      simp only [Function.update_self]
      exact hstore' m hm
    · have hnot : m ∉ holding owner t := fun hmem => by
        rw [holding, Set.mem_ofPred_eq, hm] at hmem
        exact htt (Option.some.inj hmem)
      simp only [Function.update_of_ne htt]
      exact (hops.frame _ _ hnot).trans (h.held m t' hm)

omit [DecidableEq T] in
theorem Settles.lock (h : Settles todo now owner store a) (ht : todo t = [])
    (hfree : owner m = none) :
    Settles todo now (Function.update owner m (some t)) store a := by
  refine ⟨h.vars, fun n hn => ?_, fun n t' hn => ?_⟩
  · by_cases hnm : n = m
    · subst hnm
      exact h.free n hfree
    · rw [Function.update_of_ne hnm] at hn
      exact h.free n hn
  · by_cases hnm : n = m
    · subst hnm
      rw [Function.update_self] at hn
      cases hn
      rw [h.free n hfree, ht]
      rfl
    · rw [Function.update_of_ne hnm] at hn
      exact h.held n t' hn

omit [DecidableEq T] in
/-- What one thread does to the parts it holds changes nothing for the others. -/
theorem Settles.others (h : Settles todo now owner store a)
    (hstore : ∀ m, owner m ≠ some t → store' m = store m) (ht : t' ≠ t)
    (hother : todo t' = [] ∨ Releasing (holding owner t') (todo t')) :
    a.vars t' = (execute (todo t') (now t', store')).1 ∧
      ∀ m, owner m = some t' → a.store m = (execute (todo t') (now t', store')).2 m := by
  have hkept : ∀ m ∈ holding owner t', store m = store' m := by
    intro m hm
    refine (hstore m fun hmt => ht ?_).symm
    rw [holding, Set.mem_ofPred_eq, hmt] at hm
    exact (Option.some.inj hm).symm
  rw [h.vars t']
  rcases hother with hnil | hrel
  · refine ⟨by rw [hnil]; rfl, fun m hm => ?_⟩
    rw [h.held m t' hm, hnil]
    exact hkept m hm
  · obtain ⟨hvars, hsame⟩ := hrel.congr (now t') hkept
    exact ⟨hvars, fun m hm => (h.held m t' hm).trans (hsame m hm)⟩

/-- A thread goes on with its procedure, in the parts it holds. -/
theorem Settles.advance (h : Settles todo now owner store a)
    (hrun : execute ops (v, store') = execute (todo t) (now t, store))
    (howner : ∀ m t', owner' m = some t' → owner m = some t')
    (hfree : ∀ m, owner' m = none → owner m = none ∨
      owner m = some t ∧ (execute ops (v, store')).2 m = store' m)
    (hstore : ∀ m, owner m ≠ some t → store' m = store m)
    (hothers : ∀ t', todo t' = [] ∨ Releasing (holding owner t') (todo t')) :
    Settles (Function.update todo t ops) (Function.update now t v) owner' store' a := by
  refine ⟨fun t' => ?_, fun m hm => ?_, fun m t' hm => ?_⟩
  · by_cases ht : t' = t
    · subst ht
      simp only [Function.update_self]
      exact (h.vars t').trans (congrArg Prod.fst hrun.symm)
    · simp only [Function.update_of_ne ht]
      exact (h.others hstore ht (hothers t')).1
  · rcases hfree m hm with hm' | ⟨hm', hdone⟩
    · rw [h.free m hm']
      refine (hstore m fun hmt => ?_).symm
      rw [hm'] at hmt
      cases hmt
    · rw [h.held m t hm', ← hrun]
      exact hdone
  · by_cases ht : t' = t
    · subst ht
      simp only [Function.update_self]
      exact (h.held m t' (howner m t' hm)).trans (congrFun (congrArg Prod.snd hrun.symm) m)
    · simp only [Function.update_of_ne ht]
      exact (h.others hstore ht (hothers t')).2 m (howner m t' hm)

end Settles

omit [DecidableEq T] [DecidableEq M] in
theorem committed_entering (h : entering (s.threads t).rest = true) :
    committed s t = [] ∧ point s t = (s.threads t).base :=
  ⟨if_pos h, if_pos h⟩

omit [DecidableEq T] [DecidableEq M] in
theorem committed_of_not (h : entering (s.threads t).rest = false) :
    committed s t = (s.threads t).rest ∧ point s t = (s.threads t).vars :=
  ⟨if_neg (by simp [h]), if_neg (by simp [h])⟩

omit [DecidableEq T] [DecidableEq M] in
theorem Sound.releasing_committed (hs : Sound rank s) (t : T) :
    committed s t = [] ∨ Releasing (holding s.owner t) (committed s t) := by
  cases hentering : entering (s.threads t).rest with
  | true => exact Or.inl (committed_entering hentering).1
  | false =>
    rw [(committed_of_not hentering).1]
    exact Or.inr ((hs t).releasing hentering)

omit [DecidableEq M] in
theorem committed_proceed (s : Machine D V P) (t : T) (thread : Thread M D (V t) (P t)) :
    committed (s.proceed t thread) =
        Function.update (committed s) t (if entering thread.rest then [] else thread.rest) ∧
      point (s.proceed t thread) =
        Function.update (point s) t (if entering thread.rest then thread.base else thread.vars) := by
  constructor
  · funext t'
    by_cases ht : t' = t
    · subst ht
      rw [committed, proceed_self, Function.update_self]
    · rw [committed, proceed_of_ne _ _ ht, Function.update_of_ne ht]
      rfl
  · funext t'
    by_cases ht : t' = t
    · subst ht
      rw [point, proceed_self, Function.update_self]
    · rw [point, proceed_of_ne _ _ ht, Function.update_of_ne ht]
      rfl

/-- What is left of the thread's procedure does the same as the whole of it. -/
def Called (code : Code D V P) (t : T) (thread : Thread M D (V t) (P t)) : Prop :=
  ∃ p ops, thread.proc = some p ∧ code t p thread.base = some ops ∧
    ∀ store, execute ops (thread.base, store) = execute thread.rest (thread.vars, store)

/-- The calls of the order, one after the other, come to `a`, and `s` is `a` but for what is
half done. -/
structure Serializes (code : Code D V P) (a₀ : Serial D V) (s : Machine D V P)
    (a : Serial D V) : Prop where
  run : System.run (serialStep code) a₀ s.order = some a
  settles : Settles (committed s) (point s) s.owner s.store a
  called : ∀ t, entering (s.threads t).rest = true → Called code t (s.threads t)

section Serializes
variable {a₀ a : Serial D V}

/-- A thread that has called or locked either goes on locking or does its whole procedure. -/
theorem Serializes.enter (hs : Sound rank s)
    (hrun : System.run (serialStep code) a₀ s.order = some a)
    (hsettles : Settles (Function.update (committed s) t [])
      (Function.update (point s) t (s.threads t).base) s.owner s.store a)
    (hself : Called code t (s.threads t))
    (hcalled : ∀ t', entering (s.threads t').rest = true → Called code t' (s.threads t')) :
    ∃ a', Serializes code a₀ (s.enter t) a' := by
  cases hentering : entering (s.threads t).rest with
  | true =>
    obtain ⟨hnone, hbase⟩ := committed_entering hentering
    rw [← hnone, ← hbase, Function.update_eq_self, Function.update_eq_self] at hsettles
    rw [Machine.enter, if_pos hentering]
    exact ⟨a, hrun, hsettles, hcalled⟩
  | false =>
    obtain ⟨p, ops, hproc, hcode, hexec⟩ := hself
    obtain ⟨hrest, hvars⟩ := committed_of_not hentering
    have hbase : a.vars t = (s.threads t).base := by
      rw [hsettles.vars t, Function.update_self, Function.update_self]
      rfl
    have hall : ∀ store, execute ops (Function.update (point s) t (s.threads t).base t, store) =
        execute (committed s t) (point s t, store) := by
      intro store
      rw [Function.update_self, hexec, hrest, hvars]
    have hdone := hsettles.commit (Function.update_self ..)
      (hrest ▸ (hs t).releasing hentering) hall
    rw [Function.update_idem, Function.update_eq_self, Function.update_idem,
      Function.update_eq_self] at hdone
    have hserial : serialStep code a ⟨t, p⟩ =
        some ⟨Function.update a.vars t (execute ops (a.vars t, a.store)).1,
          (execute ops (a.vars t, a.store)).2⟩ := by
      simp only [serialStep, hbase, hcode, Option.map_some]
    have hsame : s.enter t = { s with order := s.order ++ [⟨t, p⟩] } := by
      rw [Machine.enter, hentering, if_neg (by decide), hproc]
      rfl
    rw [hsame]
    refine ⟨_, ?_, hdone, hcalled⟩
    rw [System.run_append, hrun, Option.bind_some]
    exact System.run_cons_eq_some.mpr ⟨_, hserial, rfl⟩

theorem called_of_ne {thread : Thread M D (V t) (P t)} (ht : t' ≠ t)
    (h : Called code t' (s.threads t')) :
    Called code t' ((s.proceed t thread).threads t') := by
  rw [proceed_of_ne _ _ ht]
  exact h

/-- The other threads have called as they had, and so has the thread that goes on. -/
theorem Serializes.called_proceed (h : Serializes code a₀ s a) {thread : Thread M D (V t) (P t)}
    (hself : entering thread.rest = true → Called code t thread) (t' : T)
    (hentering : entering ((s.proceed t thread).threads t').rest = true) :
    Called code t' ((s.proceed t thread).threads t') := by
  by_cases ht : t' = t
  · subst ht
    rw [proceed_self] at hentering ⊢
    exact hself hentering
  · rw [proceed_of_ne _ _ ht] at hentering
    exact called_of_ne ht (h.called t' hentering)

/-- A thread that has its locks goes on with its procedure. -/
theorem Serializes.advance (hs : Sound rank s) (h : Serializes code a₀ s a)
    {op : Op M D (V t)} {ops : List (Op M D (V t))} (v : V t) (owner : M → Option T)
    (store : Store D) (hrest : (s.threads t).rest = op :: ops)
    (hbefore : entering (op :: ops) = false) (hafter : entering ops = false)
    (hrun : execute ops (v, store) = execute (op :: ops) ((s.threads t).vars, s.store))
    (howner : ∀ m t', owner m = some t' → s.owner m = some t')
    (hfree : ∀ m, owner m = none → s.owner m = none ∨
      s.owner m = some t ∧ (execute ops (v, store)).2 m = store m)
    (hstore : ∀ m, s.owner m ≠ some t → store m = s.store m) :
    Serializes code a₀ ({ s with owner := owner, store := store }.proceed t
      { s.threads t with vars := v, rest := ops }) a := by
  obtain ⟨hcommitted, hpoint⟩ := committed_of_not (hrest ▸ hbefore)
  refine ⟨h.run, ?_, h.called_proceed fun hentering => ?_⟩
  · obtain ⟨htodo, hnow⟩ := committed_proceed { s with owner := owner, store := store } t
      { s.threads t with vars := v, rest := ops }
    rw [htodo, hnow]
    simp only [hafter, if_neg Bool.false_ne_true]
    refine h.settles.advance ?_ howner hfree hstore hs.releasing_committed
    rw [hcommitted, hpoint, hrest]
    exact hrun
  · rw [hafter] at hentering
    cases hentering

theorem Serializes.step (hcode : ∀ t p v ops, code t p v = some ops → Disciplined rank ∅ ops)
    (hs : Sound rank s) (h : Serializes code a₀ s a) (hstep : step code s l = some s') :
    ∃ a', Serializes code a₀ s' a' := by
  have hs' := hs.step hcode hstep
  cases step_move hstep with
  | call t p ops hidle hops =>
    obtain ⟨hnone, hvars⟩ := committed_of_not (by rw [hidle]; rfl)
    refine Serializes.enter (a := a) (sound_enter.mp hs') h.run ?_ ?_
      (h.called_proceed fun _ => ⟨p, ops, rfl, hops, fun _ => rfl⟩)
    · obtain ⟨htodo, hnow⟩ := committed_proceed s t
        ⟨(s.threads t).vars, some p, (s.threads t).vars, ops⟩
      rw [htodo, hnow, proceed_self, Function.update_idem, Function.update_idem]
      change Settles (Function.update (committed s) t []) _ s.owner s.store a
      rw [← hidle, ← hnone, ← hvars, Function.update_eq_self, Function.update_eq_self]
      exact h.settles
    · rw [proceed_self]
      exact ⟨p, ops, rfl, hops, fun _ => rfl⟩
  | lock t m ops hrest hfree =>
    have hentering : entering (s.threads t).rest = true := by
      rw [hrest]
      rfl
    obtain ⟨hnone, hbase⟩ := committed_entering hentering
    have hself : Called code t { s.threads t with rest := ops } := by
      obtain ⟨p, all, hproc, hall, hexec⟩ := h.called t hentering
      refine ⟨p, all, hproc, hall, fun store => ?_⟩
      rw [hexec, hrest]
      rfl
    refine Serializes.enter (a := a) (sound_enter.mp hs') h.run ?_ ?_
      (h.called_proceed fun _ => hself)
    · obtain ⟨htodo, hnow⟩ := committed_proceed
        { s with owner := Function.update s.owner m (some t) } t { s.threads t with rest := ops }
      rw [htodo, hnow, proceed_self, Function.update_idem, Function.update_idem]
      change Settles (Function.update (committed s) t []) (Function.update (point s) t _) _ _ a
      rw [← hnone, ← hbase, Function.update_eq_self, Function.update_eq_self]
      exact h.settles.lock hnone hfree
    · rw [proceed_self]
      exact hself
  | unlock t m ops hrest hheld =>
    have ht := hs t
    rw [hrest] at ht
    refine ⟨a, h.advance hs (s.threads t).vars _ s.store hrest
      ht.2.not_entering ht.2.not_entering rfl ?_ ?_ fun _ _ => rfl⟩
    · intro n t' hn
      by_cases hnm : n = m
      · subst hnm
        rw [Function.update_self] at hn
        cases hn
      · rwa [Function.update_of_ne hnm] at hn
    · intro n hn
      by_cases hnm : n = m
      · subst hnm
        exact Or.inr ⟨hheld, ht.2.frame _ _ fun hmem => hmem.2 rfl⟩
      · rw [Function.update_of_ne hnm] at hn
        exact Or.inl hn
  | access t m f ops hrest =>
    have ht := hs t
    rw [hrest] at ht
    refine ⟨a, h.advance hs _ s.owner _ hrest ht.2.not_entering ht.2.not_entering rfl
      (fun _ _ hm => hm) (fun _ hm => Or.inl hm) ?_⟩
    intro n hn
    have hnm : n ≠ m := by
      rintro rfl
      exact hn ht.1
    exact Function.update_of_ne hnm ..
  | own t f ops hrest =>
    cases hentering : entering ops with
    | false =>
      exact ⟨a, h.advance hs _ s.owner s.store hrest hentering hentering rfl
        (fun _ _ hm => hm) (fun _ hm => Or.inl hm) fun _ _ => rfl⟩
    | true =>
      have hbefore : entering (s.threads t).rest = true := by
        rw [hrest]
        exact hentering
      obtain ⟨hnone, hbase⟩ := committed_entering hbefore
      refine ⟨a, h.run, ?_, h.called_proceed fun _ => ?_⟩
      · obtain ⟨htodo, hnow⟩ := committed_proceed s t
          { s.threads t with vars := f (s.threads t).vars, rest := ops }
        rw [htodo, hnow]
        simp only [hentering, if_true]
        rw [← hnone, ← hbase, Function.update_eq_self, Function.update_eq_self]
        exact h.settles
      · obtain ⟨p, all, hproc, hall, hexec⟩ := h.called t hbefore
        refine ⟨p, all, hproc, hall, fun store => ?_⟩
        rw [hexec, hrest]
        rfl

theorem Serializes.start (vars : ∀ t, V t) (store : Store D) :
    Serializes code ⟨vars, store⟩ (start vars store) ⟨vars, store⟩ := by
  refine ⟨rfl, ⟨fun _ => rfl, fun _ _ => rfl, fun m t hm => ?_⟩, fun t ht => ?_⟩
  · cases hm
  · cases ht

/-- Whatever the threads have done so far comes to the calls that have their locks, one after
the other. -/
theorem serializes_of_run (hcode : ∀ t p v ops, code t p v = some ops → Disciplined rank ∅ ops)
    {vars : ∀ t, V t} {store : Store D} {ls : List (Action P)}
    (h : System.run (Locks.step code) (Locks.start vars store) ls = some s) :
    Sound rank s ∧ ∃ a, Serializes code ⟨vars, store⟩ s a := by
  refine System.invariant (I := fun s => Sound rank s ∧ ∃ a, Serializes code ⟨vars, store⟩ s a)
    ?_ ⟨.start vars store, _, .start vars store⟩ h
  rintro s l t ⟨hs, a, ha⟩ hstep
  exact ⟨hs.step hcode hstep, ha.step hcode hs hstep⟩

/-- Between the procedures nothing is half done. -/
theorem Serializes.idle (hs : Sound rank s) (h : Serializes code a₀ s a)
    (hidle : Idle s) : a.store = s.store ∧ ∀ t, a.vars t = (s.threads t).vars := by
  refine ⟨funext fun m => h.settles.free m (hs.free hidle m), fun t => ?_⟩
  obtain ⟨hnone, hvars⟩ := committed_of_not (by rw [hidle t]; rfl)
  rw [h.settles.vars t, hnone, hvars, hidle t]
  rfl

end Serializes

def calls (ls : List (Action P)) : List (Σ t, P t) :=
  ls.filterMap fun l =>
    match l with
    | .call t p => some ⟨t, p⟩
    | .next _ => none

/-- The calls of one thread, those in the order and the one that waits. -/
def callsOf (s : Machine D V P) (t : T) : List (Σ t, P t) :=
  s.order.filter (fun call => call.1 = t) ++ waiting s t

omit [DecidableEq M] in
theorem callsOf_enter (s : Machine D V P) (t t' : T) :
    callsOf (s.enter t) t' = s.order.filter (fun call => call.1 = t') ++
      if t' = t then (s.threads t).proc.toList.map (Sigma.mk t) else waiting s t' := by
  unfold callsOf waiting
  rw [enter_threads]
  by_cases ht : t' = t
  · subst ht
    rw [if_pos rfl, Machine.enter]
    by_cases hentering : entering (s.threads t').rest
    · rw [if_pos hentering, if_pos hentering]
    · rw [if_neg hentering, if_neg hentering]
      cases (s.threads t').proc <;> simp
  · rw [if_neg ht, Machine.enter]
    by_cases hentering : entering (s.threads t).rest
    · rw [if_pos hentering]
    · rw [if_neg hentering]
      cases (s.threads t).proc <;> simp [Ne.symm ht]

omit [DecidableEq M] in
theorem waiting_proceed_of_ne (s : Machine D V P) (thread : Thread M D (V t) (P t))
    (ht : t' ≠ t) : waiting (s.proceed t thread) t' = waiting s t' := by
  unfold waiting
  rw [proceed_of_ne _ _ ht]

omit [DecidableEq M] in
theorem callsOf_proceed {thread : Thread M D (V t) (P t)}
    (hrest : entering thread.rest = entering (s.threads t).rest)
    (hproc : thread.proc = (s.threads t).proc) :
    callsOf (s.proceed t thread) t' = callsOf s t' := by
  by_cases ht : t' = t
  · subst ht
    unfold callsOf waiting
    rw [proceed_self, hrest, hproc]
    rfl
  · unfold callsOf
    rw [waiting_proceed_of_ne _ _ ht]
    rfl

theorem callsOf_step (hstep : step code s l = some s') (t : T) :
    callsOf s' t = callsOf s t ++ (calls [l]).filter fun call => call.1 = t := by
  cases step_move hstep with
  | call t₀ p ops hidle hops =>
    rw [callsOf_enter, proceed_self]
    by_cases ht : t = t₀
    · subst ht
      simp [callsOf, waiting, hidle, entering, calls, Machine.proceed]
    · rw [if_neg ht, waiting_proceed_of_ne _ _ ht]
      simp [callsOf, calls, Ne.symm ht, Machine.proceed]
  | lock t₀ m ops hrest hfree =>
    rw [callsOf_enter, proceed_self]
    by_cases ht : t = t₀
    · subst ht
      simp [callsOf, waiting, hrest, entering, calls, Machine.proceed]
    · rw [if_neg ht, waiting_proceed_of_ne _ _ ht]
      simp [callsOf, waiting, calls, Machine.proceed]
  | unlock t₀ m ops hrest hheld =>
    refine Eq.trans (callsOf_proceed ?_ ?_) (List.append_nil _).symm
    · rw [hrest]
      rfl
    · rfl
  | access t₀ m f ops hrest =>
    refine Eq.trans (callsOf_proceed ?_ ?_) (List.append_nil _).symm
    · rw [hrest]
      rfl
    · rfl
  | own t₀ f ops hrest =>
    refine Eq.trans (callsOf_proceed ?_ ?_) (List.append_nil _).symm
    · rw [hrest]
      rfl
    · rfl

/-- The calls of each thread are in the order as it made them. -/
theorem callsOf_run {ls : List (Action P)} (h : System.run (step code) s ls = some s')
    (t : T) : callsOf s' t = callsOf s t ++ (calls ls).filter fun call => call.1 = t := by
  induction ls generalizing s with
  | nil =>
    cases h
    exact (List.append_nil _).symm
  | cons l ls ih =>
    obtain ⟨m, hm, hrest⟩ := System.run_cons_eq_some.mp h
    rw [ih hrest, callsOf_step hm, List.append_assoc, ← List.filter_append]
    congr 2
    exact (List.filterMap_append (l := [l])).symm

omit [DecidableEq T] [DecidableEq M] in
theorem order_enter (s : Machine D V P) (t : T) : s.order <+: (s.enter t).order := by
  unfold Machine.enter
  split_ifs
  · exact List.prefix_rfl
  · exact List.prefix_append _ _

/-- What is ahead in the order stays ahead. -/
theorem order_step (hstep : step code s l = some s') : s.order <+: s'.order := by
  cases step_move hstep with
  | call t p ops hidle hops => exact order_enter (s.proceed t _) t
  | lock t m ops hrest hfree =>
    exact order_enter
      ({ s with owner := Function.update s.owner m (some t) }.proceed t
        { s.threads t with rest := ops }) t
  | _ => exact List.prefix_rfl

theorem order_run {ls : List (Action P)} (h : System.run (step code) s ls = some s') :
    s.order <+: s'.order := by
  induction ls generalizing s with
  | nil =>
    cases h
    exact List.prefix_rfl
  | cons l ls ih =>
    obtain ⟨m, hm, hrest⟩ := System.run_cons_eq_some.mp h
    exact (order_step hm).trans (ih hrest)

omit [DecidableEq M] in
theorem Idle.order (h : Idle s) (t : T) :
    s.order.filter (fun call => call.1 = t) = callsOf s t := by
  rw [callsOf, waiting, h t]
  exact (List.append_nil _).symm

end Lib.Locks
