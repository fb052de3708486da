import Mathlib.Algebra.BigOperators.Group.List.Basic
import Mathlib.Data.List.Basic
import Mathlib.Data.List.Forall2

/-!
# Labelled systems

`step s l` is the state after the step named `l`, or `none` where `s` does not
allow it. A run is the list of its labels.
-/

namespace Lib.System

set_option autoImplicit false

universe u v
variable {σ : Type u} {ℓ : Type v}

def run (step : σ → ℓ → Option σ) : σ → List ℓ → Option σ
  | s, [] => some s
  | s, l :: ls => (step s l).bind fun t => run step t ls

/-- Every step of the run is taken in a state that meets `C`. -/
def AllSteps (step : σ → ℓ → Option σ) (C : σ → ℓ → Prop) : σ → List ℓ → Prop
  | _, [] => True
  | s, l :: ls => C s l ∧ ∀ t, step s l = some t → AllSteps step C t ls

variable {step : σ → ℓ → Option σ} {C : σ → ℓ → Prop} {s t : σ} {l : ℓ} {ls : List ℓ}

theorem run_cons_eq_some :
    run step s (l :: ls) = some t ↔ ∃ m, step s l = some m ∧ run step m ls = some t := by
  simp only [run, Option.bind_eq_some_iff]

theorem run_append (ks ls : List ℓ) :
    run step s (ks ++ ls) = (run step s ks).bind fun m => run step m ls := by
  induction ks generalizing s with
  | nil => rfl
  | cons k ks ih =>
    simp only [List.cons_append, run]
    cases step s k with
    | none => rfl
    | some m => exact ih

theorem AllSteps.imp {D : σ → ℓ → Prop} (hCD : ∀ s l, C s l → D s l)
    (h : AllSteps step C s ls) : AllSteps step D s ls := by
  induction ls generalizing s with
  | nil => trivial
  | cons l ls ih => exact ⟨hCD s l h.1, fun t ht => ih (h.2 t ht)⟩

theorem AllSteps.and_mem {P : ℓ → Prop} (h : AllSteps step C s ls) (hP : ∀ l ∈ ls, P l) :
    AllSteps step (fun s l => C s l ∧ P l) s ls := by
  induction ls generalizing s with
  | nil => trivial
  | cons l ls ih =>
    refine ⟨⟨h.1, hP l List.mem_cons_self⟩, ?_⟩
    intro t ht
    exact ih (h.2 t ht) fun l' hl' => hP l' (List.mem_cons_of_mem _ hl')

/-- A system that only adds to the state of another meets the conditions that the other meets. -/
theorem AllSteps.of_map {σ' : Type*} {step' : σ' → ℓ → Option σ'} {f : σ' → σ}
    (hf : ∀ s' l t', step' s' l = some t' → step (f s') l = some (f t')) {s' : σ'}
    (h : AllSteps step C (f s') ls) : AllSteps step' (fun s' l => C (f s') l) s' ls := by
  induction ls generalizing s' with
  | nil => trivial
  | cons l ls ih => exact ⟨h.1, fun t' ht' => ih (h.2 (f t') (hf s' l t' ht'))⟩

theorem allSteps_true (s : σ) (ls : List ℓ) : AllSteps step (fun _ _ => True) s ls := by
  induction ls generalizing s with
  | nil => trivial
  | cons l ls ih => exact ⟨trivial, fun t _ => ih t⟩

instance decidableAllSteps [hC : ∀ s l, Decidable (C s l)] :
    (s : σ) → (ls : List ℓ) → Decidable (AllSteps step C s ls)
  | _, [] => isTrue trivial
  | s, l :: ls =>
    have : Decidable (∀ t, step s l = some t → AllSteps step C t ls) :=
      match step s l with
      | none => isTrue fun _ ht => nomatch ht
      | some m =>
        match decidableAllSteps m ls with
        | isTrue hm => isTrue fun _ ht => Option.some.inj ht ▸ hm
        | isFalse hm => isFalse fun hall => hm (hall m rfl)
    inferInstanceAs (Decidable (C s l ∧ _))

theorem invariant_of_allSteps {I : σ → Prop}
    (hI : ∀ s l t, I s → C s l → step s l = some t → I t)
    (h0 : I s) (hC : AllSteps step C s ls) (h : run step s ls = some t) : I t := by
  induction ls generalizing s with
  | nil =>
    cases h
    exact h0
  | cons l ls ih =>
    obtain ⟨m, hm, ht⟩ := run_cons_eq_some.mp h
    exact ih (hI s l m h0 hC.1 hm) (hC.2 m hm) ht

/-- What no step restores held before, if it holds at the end. -/
theorem run_backward {P : σ → Prop} (hP : ∀ s l t, step s l = some t → P t → P s)
    (h : run step s ls = some t) (ht : P t) : P s := by
  induction ls generalizing s with
  | nil =>
    cases h
    exact ht
  | cons l ls ih =>
    obtain ⟨m, hm, hrest⟩ := run_cons_eq_some.mp h
    exact hP s l m hm (ih hrest)

/-- Where only steps that meet `C` keep `P`, a run that ends in `P` has only such steps. -/
theorem allSteps_of_run {I P : σ → Prop} (hP : ∀ s l t, step s l = some t → P t → P s)
    (hC : ∀ s l t, I s → step s l = some t → P t → C s l)
    (hI : ∀ s l t, I s → C s l → step s l = some t → I t) (h0 : I s)
    (h : run step s ls = some t) (ht : P t) : AllSteps step C s ls := by
  induction ls generalizing s with
  | nil => trivial
  | cons l ls ih =>
    obtain ⟨m, hm, hrest⟩ := run_cons_eq_some.mp h
    have hgood : C s l := hC s l m h0 hm (run_backward hP hrest ht)
    refine ⟨hgood, ?_⟩
    intro m' hm'
    cases hm.symm.trans hm'
    exact ih (hI s l m h0 hgood hm) hrest

/-- If exactly the steps that meet `C` keep `P`, a run that ends in `P` is one that starts in
it and has only such steps. -/
theorem allSteps_iff {I P : σ → Prop} (hI : ∀ s l t, I s → step s l = some t → I t)
    (hP : ∀ s l t, I s → step s l = some t → (P t ↔ P s ∧ C s l)) (h0 : I s)
    (h : run step s ls = some t) : P t ↔ P s ∧ AllSteps step C s ls := by
  induction ls generalizing s with
  | nil =>
    cases h
    exact (and_iff_left trivial).symm
  | cons l ls ih =>
    obtain ⟨m, hm, hrest⟩ := run_cons_eq_some.mp h
    have htail := ih (hI s l m h0 hm) hrest
    simp only [AllSteps, hm, Option.some.injEq, forall_eq', htail, hP s l m h0 hm, and_assoc]

/-- The run and all its beginnings end in a state that satisfies `P`. -/
def AllStates (step : σ → ℓ → Option σ) (P : σ → Prop) (s : σ) (ls : List ℓ) : Prop :=
  ∀ ks t, ks <+: ls → run step s ks = some t → P t

theorem allStates_cons {P : σ → Prop} {m : σ} (hm : step s l = some m) :
    AllStates step P s (l :: ls) ↔ P s ∧ AllStates step P m ls := by
  constructor
  · intro h
    refine ⟨h [] s List.nil_prefix rfl, fun ks t hks ht => ?_⟩
    exact h (l :: ks) t ((List.prefix_cons_inj l).mpr hks) (run_cons_eq_some.mpr ⟨m, hm, ht⟩)
  · rintro ⟨h0, h⟩ ks t hks ht
    cases ks with
    | nil =>
      cases ht
      exact h0
    | cons k ks =>
      obtain ⟨rfl, hpre⟩ := List.cons_prefix_cons.mp hks
      obtain ⟨m', hm', ht⟩ := run_cons_eq_some.mp ht
      cases hm.symm.trans hm'
      exact h ks t hpre ht

/-- If exactly the steps that meet `C` keep `P`, then `P` holds all along a run that has only
such steps. -/
theorem allStates_iff {I P : σ → Prop} (hI : ∀ s l t, I s → step s l = some t → I t)
    (hP : ∀ s l t, I s → P s → step s l = some t → (P t ↔ C s l)) (hI0 : I s) (h0 : P s)
    (h : run step s ls = some t) : AllStates step P s ls ↔ AllSteps step C s ls := by
  induction ls generalizing s with
  | nil =>
    refine iff_of_true ?_ trivial
    intro ks t' hks ht'
    rw [List.prefix_nil.mp hks] at ht'
    cases ht'
    exact h0
  | cons l ls ih =>
    obtain ⟨m, hm, hrest⟩ := run_cons_eq_some.mp h
    have hstep := hP s l m hI0 h0 hm
    have hIm := hI s l m hI0 hm
    rw [allStates_cons hm]
    simp only [AllSteps, hm, Option.some.injEq, forall_eq']
    constructor
    · rintro ⟨-, hall⟩
      have hkept : P m := hall [] m List.nil_prefix rfl
      exact ⟨hstep.mp hkept, (ih hIm hkept hrest).mp hall⟩
    · rintro ⟨hC, hall⟩
      exact ⟨h0, (ih hIm (hstep.mpr hC) hrest).mpr hall⟩

/-- The steps that `keep` names, taken alone, do what they do in the whole run. -/
theorem run_filter {keep : ℓ → Bool} {R : σ → σ → Prop} {s' : σ}
    (hkeep : ∀ s s' l t, R s s' → C s l → step s l = some t → keep l = true →
      ∃ t', step s' l = some t' ∧ R t t')
    (hdrop : ∀ s s' l t, R s s' → C s l → step s l = some t → keep l = false → R t s')
    (h0 : R s s') (hC : AllSteps step C s ls) (h : run step s ls = some t) :
    ∃ t', run step s' (ls.filter keep) = some t' ∧ R t t' := by
  induction ls generalizing s s' with
  | nil =>
    cases h
    exact ⟨s', rfl, h0⟩
  | cons l ls ih =>
    obtain ⟨m, hm, ht⟩ := run_cons_eq_some.mp h
    cases hl : keep l with
    | true =>
      obtain ⟨m', hm', hR⟩ := hkeep s s' l m h0 hC.1 hm hl
      obtain ⟨t', ht', hR'⟩ := ih hR (hC.2 m hm) ht
      rw [List.filter_cons_of_pos hl]
      exact ⟨t', run_cons_eq_some.mpr ⟨m', hm', ht'⟩, hR'⟩
    | false =>
      rw [List.filter_cons_of_neg (by rw [hl]; decide)]
      exact ih (hdrop s s' l m h0 hC.1 hm hl) (hC.2 m hm) ht

/-- Where every step has its like in another system, so has every run. -/
theorem run_forall₂ {σ' : Type*} {ℓ' : Type*} {step' : σ' → ℓ' → Option σ'} {Q : ℓ → ℓ' → Prop}
    {R : σ → σ' → Prop} {s' : σ'}
    (hR : ∀ s s' l t, R s s' → step s l = some t →
      ∃ l' t', Q l l' ∧ step' s' l' = some t' ∧ R t t')
    (h0 : R s s') (h : run step s ls = some t) :
    ∃ ls' t', List.Forall₂ Q ls ls' ∧ run step' s' ls' = some t' ∧ R t t' := by
  induction ls generalizing s s' with
  | nil =>
    cases h
    exact ⟨[], s', .nil, rfl, h0⟩
  | cons l ls ih =>
    obtain ⟨m, hm, ht⟩ := run_cons_eq_some.mp h
    obtain ⟨l', m', hQ, hm', hR'⟩ := hR s s' l m h0 hm
    obtain ⟨ls', t', hQs, ht', hend⟩ := ih hR' ht
    exact ⟨l' :: ls', t', .cons hQ hQs, run_cons_eq_some.mpr ⟨m', hm', ht'⟩, hend⟩

theorem run_map {σ' : Type*} {ℓ' : Type*} {step' : σ' → ℓ' → Option σ'} {f : ℓ → ℓ'}
    {R : σ → σ' → Prop} {s' : σ'}
    (hR : ∀ s s' l t, R s s' → step s l = some t → ∃ t', step' s' (f l) = some t' ∧ R t t')
    (h0 : R s s') (h : run step s ls = some t) :
    ∃ t', run step' s' (ls.map f) = some t' ∧ R t t' := by
  have hR' : ∀ s s' l t, R s s' → step s l = some t →
      ∃ l' t', f l = l' ∧ step' s' l' = some t' ∧ R t t' := by
    intro s s' l t h0 hstep
    obtain ⟨t', ht', hend⟩ := hR s s' l t h0 hstep
    exact ⟨f l, t', rfl, ht', hend⟩
  obtain ⟨ls', t', hmap, ht', hend⟩ := run_forall₂ hR' h0 h
  rw [← List.forall₂_map_left_iff, List.forall₂_eq_eq_eq] at hmap
  exact ⟨t', hmap ▸ ht', hend⟩

/-- A run of the finer system is one of the coarser system, of the steps that it sees. -/
theorem run_filterMap {σ' : Type*} {ℓ' : Type*} {step' : σ' → ℓ' → Option σ'} {f : ℓ → Option ℓ'}
    {R : σ → σ' → Prop} {s' : σ'}
    (hseen : ∀ s s' l t l', R s s' → step s l = some t → f l = some l' →
      ∃ t', step' s' l' = some t' ∧ R t t')
    (hunseen : ∀ s s' l t, R s s' → step s l = some t → f l = none → R t s')
    (h0 : R s s') (h : run step s ls = some t) :
    ∃ t', run step' s' (ls.filterMap f) = some t' ∧ R t t' := by
  induction ls generalizing s s' with
  | nil =>
    cases h
    exact ⟨s', rfl, h0⟩
  | cons l ls ih =>
    obtain ⟨m, hm, ht⟩ := run_cons_eq_some.mp h
    cases hl : f l with
    | none =>
      rw [List.filterMap_cons_none hl]
      exact ih (hunseen s s' l m h0 hm hl) ht
    | some l' =>
      rw [List.filterMap_cons_some hl]
      obtain ⟨m', hm', hR⟩ := hseen s s' l m l' h0 hm hl
      obtain ⟨t', ht', hend⟩ := ih hR ht
      exact ⟨t', run_cons_eq_some.mpr ⟨m', hm', ht'⟩, hend⟩

/-- What every step adds by its label alone. -/
theorem run_sum {α : Type*} [AddMonoid α] {f : σ → α} {g : ℓ → α}
    (hf : ∀ s l t, step s l = some t → f t = f s + g l) (h : run step s ls = some t) :
    f t = f s + (ls.map g).sum := by
  induction ls generalizing s with
  | nil =>
    cases h
    rw [List.map_nil, List.sum_nil, add_zero]
  | cons l ls ih =>
    obtain ⟨m, hm, ht⟩ := run_cons_eq_some.mp h
    rw [ih ht, hf s l m hm, List.map_cons, List.sum_cons, add_assoc]

/-- What every step of a kind takes one from counts the steps of that kind. -/
theorem run_measure {κ : Type*} {f : κ → ℓ} {μ : σ → Nat}
    (hμ : ∀ s k t, step s (f k) = some t → μ t + 1 = μ s) {ks : List κ}
    (h : run step s (ks.map f) = some t) : ks.length + μ t = μ s := by
  induction ks generalizing s with
  | nil =>
    cases h
    exact Nat.zero_add _
  | cons k ks ih =>
    obtain ⟨m, hm, hrest⟩ := run_cons_eq_some.mp h
    have hone := hμ s k m hm
    have hmore := ih hrest
    rw [List.length_cons]
    omega

/-- Where every step of a kind only takes something away, there are at most so many of them. -/
theorem run_measure_le {κ : Type*} {f : κ → ℓ} {μ : σ → Nat} {I : σ → Prop}
    (hI : ∀ s k t, I s → step s (f k) = some t → I t ∧ μ t < μ s) (h0 : I s) {ks : List κ}
    (h : run step s (ks.map f) = some t) : I t ∧ ks.length + μ t ≤ μ s := by
  induction ks generalizing s with
  | nil =>
    cases h
    exact ⟨h0, Nat.le_of_eq (Nat.zero_add _)⟩
  | cons k ks ih =>
    obtain ⟨m, hm, hrest⟩ := run_cons_eq_some.mp h
    obtain ⟨hnext, hless⟩ := hI s k m h0 hm
    obtain ⟨hend, hmore⟩ := ih hnext hrest
    refine ⟨hend, ?_⟩
    rw [List.length_cons]
    omega

/-- If one of them is possible as long as something is left, they come to an end. -/
theorem exists_run_to_zero {κ : Type*} {f : κ → ℓ} {μ : σ → Nat} {I : σ → Prop}
    (hI : ∀ s k t, I s → step s (f k) = some t → I t ∧ μ t < μ s)
    (hgo : ∀ s, I s → μ s ≠ 0 → ∃ k t, step s (f k) = some t) (h0 : I s) :
    ∃ (ks : List κ) (t : σ), run step s (ks.map f) = some t ∧ μ t = 0 := by
  induction hn : μ s using Nat.strongRecOn generalizing s with
  | _ n ih =>
    by_cases hzero : μ s = 0
    · exact ⟨[], s, rfl, hzero⟩
    · obtain ⟨k, m, hm⟩ := hgo s h0 hzero
      obtain ⟨hnext, hless⟩ := hI s k m h0 hm
      obtain ⟨ks, t, hrun, hend⟩ := ih (μ m) (by omega) hnext rfl
      exact ⟨k :: ks, t, run_cons_eq_some.mpr ⟨m, hm, hrun⟩, hend⟩

theorem invariant {I : σ → Prop} (hI : ∀ s l t, I s → step s l = some t → I t)
    (h0 : I s) (h : run step s ls = some t) : I t :=
  invariant_of_allSteps (C := fun _ _ => True) (fun s l t hs _ => hI s l t hs) h0
    (allSteps_true s ls) h

end Lib.System
