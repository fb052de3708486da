import Mathlib.Data.Option.Basic
import Mathlib.Logic.Relation

/-!
# While loops run with fuel

The body of a loop is a function `step`: `.inl s'` goes round again from `s'`,
`.inr r` leaves the loop with `r`. `run` gives the loop a finite number of trips,
`headAt` is the state in which trip number `n` begins.
-/

namespace Lib.Loop

set_option autoImplicit false

universe u v
variable {σ : Type u} {ρ : Type v}

def run (step : σ → σ ⊕ ρ) : Nat → σ → Option ρ
  | 0, _ => none
  | n + 1, s =>
    match step s with
    | .inl s' => run step n s'
    | .inr r => some r

def headAt (step : σ → σ ⊕ ρ) : Nat → σ → Option σ
  | 0, s => some s
  | n + 1, s => (headAt step n s).bind fun t => (step t).getLeft?

/-- The states in which some trip of the loop started in `s` begins. -/
def Head (step : σ → σ ⊕ ρ) (s t : σ) : Prop := ∃ n, headAt step n s = some t

/-- The heads of the trips that go round again, in at most `n` trips. -/
def rounds (step : σ → σ ⊕ ρ) : Nat → σ → List σ
  | 0, _ => []
  | n + 1, s =>
    match step s with
    | .inl s' => s :: rounds step n s'
    | .inr _ => []

/-- The loop started in `s` is left with `r`. -/
def Evals (step : σ → σ ⊕ ρ) (s : σ) (r : ρ) : Prop := ∃ n, run step n s = some r

variable {step : σ → σ ⊕ ρ} {s t : σ} {r : ρ} {n : Nat}

theorem run_succ_inl (h : step s = .inl t) : run step (n + 1) s = run step n t := by
  simp only [run, h]

theorem run_succ_inr (h : step s = .inr r) : run step (n + 1) s = some r := by
  simp only [run, h]

theorem run_mono {m : Nat} (hnm : n ≤ m) (h : run step n s = some r) : run step m s = some r := by
  induction n generalizing s m with
  | zero => simp [run] at h
  | succ n ih =>
    obtain ⟨m, rfl⟩ : ∃ k, m = k + 1 := ⟨m - 1, by omega⟩
    cases hs : step s with
    | inl t =>
      rw [run_succ_inl hs] at h ⊢
      exact ih (by omega) h
    | inr q =>
      rw [run_succ_inr hs] at h ⊢
      exact h

theorem Evals.unique {q : ρ} (hr : Evals step s r) (hq : Evals step s q) : r = q := by
  obtain ⟨n, hn⟩ := hr
  obtain ⟨m, hm⟩ := hq
  have hr' := run_mono (Nat.le_max_left n m) hn
  have hq' := run_mono (Nat.le_max_right n m) hm
  exact Option.some.inj (hr'.symm.trans hq')

@[simp] theorem headAt_zero : headAt step 0 s = some s := rfl

theorem headAt_succ_eq_some :
    headAt step (n + 1) s = some t ↔ ∃ m, headAt step n s = some m ∧ step m = .inl t := by
  simp only [headAt, Option.bind_eq_some_iff]
  constructor
  · rintro ⟨m, hm, ht⟩
    exact ⟨m, hm, by cases hs : step m <;> simp_all⟩
  · rintro ⟨m, hm, ht⟩
    exact ⟨m, hm, by simp [ht]⟩

theorem headAt_succ_of_inl (h : step s = .inl t) : headAt step (n + 1) s = headAt step n t := by
  induction n with
  | zero => simp [headAt, h]
  | succ n ih => rw [headAt, ih]; rfl

theorem headAt_succ_of_inr (h : step s = .inr r) : headAt step (n + 1) s = none := by
  induction n with
  | zero => simp [headAt, h]
  | succ n ih => rw [headAt, ih]; rfl

theorem Head.refl (s : σ) : Head step s s := ⟨0, rfl⟩

theorem Head.next {m : σ} (h : Head step s m) (hm : step m = .inl t) : Head step s t := by
  obtain ⟨n, hn⟩ := h
  exact ⟨n + 1, headAt_succ_eq_some.mpr ⟨m, hn, hm⟩⟩

theorem Head.eq_of_inr (h : Head step s t) (hs : step s = .inr r) : t = s := by
  obtain ⟨n, hn⟩ := h
  induction n generalizing t with
  | zero =>
    cases hn
    rfl
  | succ n ih =>
    obtain ⟨m, hm, hmt⟩ := headAt_succ_eq_some.mp hn
    rw [ih hm, hs] at hmt
    cases hmt

theorem Head.eq_or_of_inl {m : σ} (h : Head step s t) (hs : step s = .inl m) :
    t = s ∨ Head step m t := by
  obtain ⟨n, hn⟩ := h
  cases n with
  | zero =>
    cases hn
    exact Or.inl rfl
  | succ n =>
    rw [headAt_succ_of_inl hs] at hn
    exact Or.inr ⟨n, hn⟩

/-- What one trip preserves holds at every head of the loop. -/
theorem Head.invariant {I : σ → Prop} (h0 : I s)
    (hI : ∀ a b, Head step s a → I a → step a = .inl b → I b) (h : Head step s t) : I t := by
  obtain ⟨n, hn⟩ := h
  induction n generalizing t with
  | zero =>
    cases hn
    exact h0
  | succ n ih =>
    obtain ⟨m, hm, ht⟩ := headAt_succ_eq_some.mp hn
    exact hI m t ⟨n, hm⟩ (ih hm) ht

/-- What each trip preserves, together with the list of the trips before it, holds at the last
one. -/
theorem run_rounds {I : List σ → σ → Prop}
    (hI : ∀ l a b, I l a → step a = .inl b → I (l ++ [a]) b) {l : List σ} (h0 : I l s)
    (h : run step n s = some r) : ∃ t, step t = .inr r ∧ I (l ++ rounds step n s) t := by
  induction n generalizing l s with
  | zero => cases h
  | succ n ih =>
    cases hs : step s with
    | inl t =>
      rw [run_succ_inl hs] at h
      obtain ⟨u, hu, hlast⟩ := ih (hI l s t h0 hs) h
      refine ⟨u, hu, ?_⟩
      rw [List.append_assoc] at hlast
      rw [rounds, hs]
      exact hlast
    | inr q =>
      rw [run_succ_inr hs] at h
      refine ⟨s, hs.trans (congrArg Sum.inr (Option.some.inj h)), ?_⟩
      rw [rounds, hs, List.append_nil]
      exact h0

/-- A loop whose every trip is the image of a trip of another has the image of its result. -/
theorem run_map {σ' : Type u} {ρ' : Type v} {step' : σ' → σ' ⊕ ρ'} {f : σ → σ'} {g : ρ → ρ'}
    {I : σ → Prop} (hmap : ∀ a, I a → step' (f a) = (step a).map f g)
    (hI : ∀ a b, I a → step a = .inl b → I b) (h0 : I s) :
    run step' n (f s) = (run step n s).map g := by
  induction n generalizing s with
  | zero => rfl
  | succ n ih =>
    have himage := hmap s h0
    cases hs : step s with
    | inl t =>
      rw [hs] at himage
      rw [run_succ_inl himage, run_succ_inl hs]
      exact ih (hI s t h0 hs)
    | inr r =>
      rw [hs] at himage
      rw [run_succ_inr himage, run_succ_inr hs]
      rfl

/-- A result is produced by the last trip, whose head the loop reaches. -/
theorem evals_iff : Evals step s r ↔ ∃ t, Head step s t ∧ step t = .inr r := by
  constructor
  · rintro ⟨n, hn⟩
    induction n generalizing s with
    | zero => simp [run] at hn
    | succ n ih =>
      cases hs : step s with
      | inl m =>
        rw [run_succ_inl hs] at hn
        obtain ⟨t, ⟨k, hk⟩, ht⟩ := ih hn
        exact ⟨t, ⟨k + 1, by rw [headAt_succ_of_inl hs, hk]⟩, ht⟩
      | inr q =>
        rw [run_succ_inr hs, Option.some.injEq] at hn
        exact ⟨s, .refl s, by rw [hs, hn]⟩
  · rintro ⟨t, ⟨n, hn⟩, ht⟩
    induction n generalizing s with
    | zero =>
      cases hn
      exact ⟨1, run_succ_inr ht⟩
    | succ n ih =>
      cases hs : step s with
      | inl m =>
        rw [headAt_succ_of_inl hs] at hn
        obtain ⟨k, hk⟩ := ih hn
        exact ⟨k + 1, by rw [run_succ_inl hs, hk]⟩
      | inr q =>
        rw [headAt_succ_of_inr hs] at hn
        cases hn

theorem exists_evals_of_headAt_eq_none (h : headAt step n s = none) : ∃ r, Evals step s r := by
  induction n generalizing s with
  | zero => simp at h
  | succ n ih =>
    cases hs : step s with
    | inl t =>
      rw [headAt_succ_of_inl hs] at h
      obtain ⟨r, k, hk⟩ := ih h
      exact ⟨r, k + 1, by rw [run_succ_inl hs, hk]⟩
    | inr r => exact ⟨r, 1, run_succ_inr hs⟩

theorem exists_evals_of_bound (B : Nat) (h : ∀ n t, headAt step n s = some t → n ≤ B) :
    ∃ r, Evals step s r := by
  apply exists_evals_of_headAt_eq_none (n := B + 1)
  cases hs : headAt step (B + 1) s with
  | none => rfl
  | some t => exact absurd (h _ t hs) (by omega)

/-- A loop that is left has begun its last trip, and no other after it. -/
theorem Evals.exists_trips (h : Evals step s r) :
    ∃ n, run step (n + 1) s = some r ∧ ∀ m, (headAt step m s).isSome ↔ m ≤ n := by
  obtain ⟨k, hk⟩ := h
  induction k generalizing s with
  | zero => cases hk
  | succ k ih =>
    cases hs : step s with
    | inl t =>
      rw [run_succ_inl hs] at hk
      obtain ⟨n, hn, htrips⟩ := ih hk
      refine ⟨n + 1, ?_, ?_⟩
      · rw [run_succ_inl hs, hn]
      · intro m
        cases m with
        | zero => simp
        | succ m => rw [headAt_succ_of_inl hs, htrips, Nat.succ_le_succ_iff]
    | inr q =>
      rw [run_succ_inr hs] at hk
      refine ⟨0, ?_, ?_⟩
      · rw [run_succ_inr hs, hk]
      · intro m
        cases m with
        | zero => simp
        | succ m => simp [headAt_succ_of_inr hs]

end Lib.Loop
