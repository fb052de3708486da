import Mathlib.Logic.Function.Basic

/-!
# Pointers

Memory for one type of object, reached through pointers that may be `NULL` or stale, and
calls that may not come back.
-/

namespace Lib.Pointers

set_option autoImplicit false

universe u
variable {α β : Type u}

/-- Why a call does not come back: an access through a pointer to no object, a lock on a
mutex that is held, a walk round a cycle, or an environment that has not answered. -/
inductive Stop where
  | segfault
  | deadlock
  | endless
  | noAnswer
deriving DecidableEq, Repr

abbrev Call := Except Stop

abbrev Heap (α : Type u) := Nat → Option α

def deref (h : Heap α) (p : Option Nat) : Call α :=
  match p.bind h with
  | none => .error .segfault
  | some c => .ok c

def assign (h : Heap α) (p : Option Nat) (f : α → α) : Call (Heap α) :=
  match p with
  | none => .error .segfault
  | some i =>
    match h i with
    | none => .error .segfault
    | some c => .ok (Function.update h i (some (f c)))

def free (h : Heap α) (p : Option Nat) : Call (Heap α) :=
  match p with
  | none => .ok h
  | some i => if (h i).isSome then .ok (Function.update h i none) else .error .segfault

/-- The allocator's answer: `NULL`, or a pointer to no object. -/
def malloc (h : Heap α) (answer : Option Nat) : Call (Option Nat) :=
  match answer with
  | none => .ok none
  | some p => if (h p).isSome then .error .noAnswer else .ok (some p)

def lock : Bool → Call Bool
  | true => .error .deadlock
  | false => .ok true

@[simp] theorem ok_bind (a : α) (f : α → Call β) : (Except.ok a >>= f) = f a := rfl

@[simp] theorem error_bind (e : Stop) (f : α → Call β) :
    ((Except.error e : Call α) >>= f) = .error e :=
  rfl

@[simp] theorem pure_eq_ok (a : α) : (pure a : Call α) = .ok a := rfl

theorem bind_eq_ok {call : Call α} {f : α → Call β} {b : β} :
    (call >>= f) = .ok b ↔ ∃ a, call = .ok a ∧ f a = .ok b := by
  cases call with
  | ok a => simp
  | error e => simp

/-- The call does not stop for the given reason, and where it returns `P` holds. -/
def Avoids (stop : Stop) (P : α → Prop) : Call α → Prop
  | .ok a => P a
  | .error e => e ≠ stop

instance (stop : Stop) (P : α → Prop) [DecidablePred P] : (call : Call α) →
    Decidable (Avoids stop P call)
  | .ok a => inferInstanceAs (Decidable (P a))
  | .error e => inferInstanceAs (Decidable (e ≠ stop))

variable {h : Heap α} {p : Nat} {c : α}

theorem deref_eq (hp : h p = some c) : deref h (some p) = .ok c := by
  simp only [deref, Option.bind_some, hp]

theorem assign_eq (hp : h p = some c) (f : α → α) :
    assign h (some p) f = .ok (Function.update h p (some (f c))) := by
  simp only [assign, hp]

theorem free_eq (hp : h p = some c) : free h (some p) = .ok (Function.update h p none) := by
  simp [free, hp]

theorem malloc_eq (hp : h p = none) : malloc h (some p) = .ok (some p) := by
  simp [malloc, hp]

/-- The two memories hold objects in the same places. -/
def SamePlaces (h h' : Heap α) : Prop := ∀ x, (h' x).isSome = (h x).isSome

theorem SamePlaces.trans {h₁ h₂ h₃ : Heap α} (h : SamePlaces h₁ h₂) (h' : SamePlaces h₂ h₃) :
    SamePlaces h₁ h₃ :=
  fun x => (h' x).trans (h x)

theorem assign_samePlaces {h h' : Heap α} {p : Option Nat} {f : α → α}
    (hassign : assign h p f = .ok h') : SamePlaces h h' := by
  unfold assign at hassign
  cases p with
  | none => cases hassign
  | some i =>
    dsimp only at hassign
    cases hi : h i with
    | none =>
      rw [hi] at hassign
      cases hassign
    | some c =>
      rw [hi] at hassign
      cases hassign
      intro x
      by_cases hx : x = i
      · simp [hx, hi]
      · simp [hx]

end Lib.Pointers
