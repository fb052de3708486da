import CPong.PaddlePrediction

/-!
# The range of the input accumulators

`on_input_ready` adds what the network sends to a signed 32-bit number and `send_state` takes
its `abs`. The values are not checked, so it is for the senders to keep the sums in range.
-/

namespace CPong

set_option autoImplicit false

open Lib.System

/-- What the server does with its input accumulators: it receives a `PACKET_INPUT` of the
current round from the client `id`, or a tick takes them. -/
inductive InputEvent (F : Type) where
  | input (id : I32) (res : Int) (packet : Packet F)
  | tick (tick : Tick)

/-- The accumulator that `on_input_ready` chooses for the client `id`. -/
def Credits (ids : Fin 2 → I32) (id : I32) (i : Fin 2) : Prop :=
  ids i = id ∧ (i = 1 → ids 0 ≠ id)

instance (ids : Fin 2 → I32) (id : I32) (i : Fin 2) : Decidable (Credits ids id i) :=
  inferInstanceAs (Decidable (_ ∧ _))

def sumsAfter (ids : Fin 2 → I32) (sums : Fin 2 → Int) (id : I32) (inputAccMs : Int) :
    Fin 2 → Int :=
  fun i => if Credits ids id i then sums i + inputAccMs else sums i

/-- The sums of what each player has sent since the last tick are in the range of an `int`,
and a tick does not find its least value. -/
def SumsFit {F : Type} (ids : Fin 2 → I32) : (Fin 2 → Int) → List (InputEvent F) → Prop
  | _, [] => True
  | sums, .input id _ packet :: ls =>
    (∀ i, InInt32 (sumsAfter ids sums id packet.data.inputAccMs.toInt i)) ∧
      SumsFit ids (sumsAfter ids sums id packet.data.inputAccMs.toInt) ls
  | sums, .tick _ :: ls => (∀ i, sums i ≠ -2 ^ 31) ∧ SumsFit ids 0 ls

section
variable {F : Type}

/-- The additions and calls of `abs` of one event have results that an `int` can hold. -/
def Computes (g : Globals F) : InputEvent F → Prop
  | .input id _ packet => ∀ i, Credits g.state.playerIds id i →
      InInt32 ((inputOf g i).toInt + packet.data.inputAccMs.toInt)
  | .tick _ => ∀ i, InInt32 |(inputOf g i).toInt|

instance (g : Globals F) (l : InputEvent F) : Decidable (Computes g l) :=
  match l with
  | .input _ _ _ => inferInstanceAs (Decidable (∀ _, _))
  | .tick _ => inferInstanceAs (Decidable (∀ _, _))

theorem inputOf_accumulate (g : Globals F) (id inputAccMs : I32) (i : Fin 2) :
    inputOf (onInputReadyAccumulate g id inputAccMs) i =
      if Credits g.state.playerIds id i then inputOf g i + inputAccMs else inputOf g i := by
  unfold onInputReadyAccumulate Credits inputOf
  match i with
  | 0 => split_ifs <;> simp_all
  | 1 => split_ifs <;> simp_all

theorem onInputReady_credits {g : Globals F} {id : I32} {res : Int} {packet : Packet F}
    (hres : res ≠ 0) (hsync : packet.sync = g.ssync)
    (htype : packet.type = CpongPacket.input.code) :
    onInputReady g id res packet = (true, onInputReadyAccumulate g id packet.data.inputAccMs) := by
  unfold onInputReady
  rw [if_neg hres, if_neg (not_not.mpr hsync), if_neg (not_not.mpr htype)]

theorem inInt32_toInt (x : I32) : InInt32 x.toInt := by
  have hlo := BitVec.le_toInt x
  have hhi := BitVec.toInt_lt (x := x)
  exact ⟨by simpa using hlo, by simpa using hhi⟩

theorem inInt32_abs (x : I32) : InInt32 |x.toInt| ↔ x.toInt ≠ -2 ^ 31 := by
  obtain ⟨hlo, hhi⟩ := inInt32_toInt x
  have hnn := abs_nonneg x.toInt
  unfold InInt32
  rw [abs_lt]
  omega

theorem inInt32_sumsAfter (g : Globals F) (id : I32) (n : Int) :
    (∀ i, InInt32 (sumsAfter g.state.playerIds (fun i => (inputOf g i).toInt) id n i)) ↔
      ∀ i, Credits g.state.playerIds id i → InInt32 ((inputOf g i).toInt + n) := by
  refine forall_congr' fun i => ?_
  unfold sumsAfter
  by_cases hi : Credits g.state.playerIds id i
  · simp only [hi, if_true, forall_const]
  · simp only [hi, if_false, false_imp_iff, iff_true]
    exact inInt32_toInt _

/-- As long as nothing overflows, the accumulators hold the sums. -/
theorem toInt_accumulate {g : Globals F} {id inputAccMs : I32}
    (h : ∀ i, Credits g.state.playerIds id i → InInt32 ((inputOf g i).toInt + inputAccMs.toInt)) :
    (fun i => (inputOf (onInputReadyAccumulate g id inputAccMs) i).toInt) =
      sumsAfter g.state.playerIds (fun i => (inputOf g i).toInt) id inputAccMs.toInt := by
  funext i
  rw [inputOf_accumulate]
  unfold sumsAfter
  split
  · rename_i hi
    exact toInt_add_of_inInt32 (h i hi)
  · rfl

variable [Field F] [LinearOrder F] [FloorRing F] [Libm F]

def inputStep (g : Globals F) : InputEvent F → Option (Globals F)
  | .input id res packet =>
    if 0 < res ∧ packet.type = CpongPacket.input.code ∧ packet.sync = g.ssync then
      some (onInputReady g id res packet).2
    else none
  | .tick tick => (sendState tick g).map fun r => r.2

variable {g t : Globals F}

theorem inputStep_input {id : I32} {res : Int} {packet : Packet F}
    (h : inputStep g (.input id res packet) = some t) :
    t = onInputReadyAccumulate g id packet.data.inputAccMs := by
  simp only [inputStep] at h
  split at h
  · rename_i hgenuine
    rw [onInputReady_credits hgenuine.1.ne' hgenuine.2.2 hgenuine.2.1] at h
    exact (Option.some.inj h).symm
  · cases h

theorem inputStep_ids {l : InputEvent F} (h : inputStep g l = some t) :
    t.state.playerIds = g.state.playerIds := by
  cases l with
  | input id res packet =>
    rw [inputStep_input h, onInputReadyAccumulate_state]
  | tick tick =>
    obtain ⟨r, hr, rfl⟩ := Option.map_eq_some_iff.mp h
    exact (sendState_ids hr).1

/-- A tick leaves nothing to take. -/
theorem inputOf_sendState {tick : Tick} {packet : Packet F}
    (h : sendState tick g = some (packet, t)) (i : Fin 2) : inputOf t i = 0 := by
  have hzero : t.input1 = 0 ∧ t.input2 = 0 := by
    obtain ⟨_, _, -, ⟨-, rfl, -⟩ | ⟨_, -, rfl, -⟩⟩ := sendState_cases h
    · exact ⟨rfl, rfl⟩
    · exact ⟨rfl, rfl⟩
  unfold inputOf
  split
  · exact hzero.1
  · exact hzero.2

/-- The accumulators are computed without overflow along a run if and only if the sums of the
inputs, taken as integers, stay in range. -/
theorem input_accumulation_iff {ls : List (InputEvent F)} (h : run inputStep g ls = some t) :
    AllSteps inputStep Computes g ls ↔
      SumsFit g.state.playerIds (fun i => (inputOf g i).toInt) ls := by
  induction ls generalizing g with
  | nil => exact Iff.rfl
  | cons l ls ih =>
    obtain ⟨m, hm, hrest⟩ := run_cons_eq_some.mp h
    have htail := ih hrest
    rw [inputStep_ids hm] at htail
    simp only [AllSteps, hm, Option.some.injEq, forall_eq', htail]
    cases l with
    | input id res packet =>
      cases inputStep_input hm
      simp only [Computes, SumsFit, inInt32_sumsAfter]
      apply and_congr_right
      intro hfit
      rw [toInt_accumulate hfit]
    | tick tick =>
      obtain ⟨r, hr, rfl⟩ := Option.map_eq_some_iff.mp hm
      have hzero : (fun i => (inputOf r.2 i).toInt) = 0 := by
        funext i
        rw [inputOf_sendState hr]
        rfl
      simp only [Computes, SumsFit, inInt32_abs, hzero]

def twoPlayers : Globals ℚ :=
  { (Globals.zero : Globals ℚ) with
    state := { (Globals.zero : Globals ℚ).state with playerIds := ![1, 2] } }

/-- Both players send the largest `int`. -/
theorem input_accumulation_largest :
    AllSteps inputStep Computes twoPlayers
      [.input 1 10 (inputPacket 0 2147483647), .input 2 10 (inputPacket 0 2147483647)] := by
  have hrun : run inputStep twoPlayers
      [.input 1 10 (inputPacket 0 2147483647), .input 2 10 (inputPacket 0 2147483647)] =
      some { twoPlayers with input1 := 2147483647, input2 := 2147483647 } := by
    decide
  apply (input_accumulation_iff hrun).mpr
  simp only [SumsFit]
  decide

/-- One millisecond more from one of them is too much. -/
theorem input_accumulation_overflows :
    ∃ t, run inputStep twoPlayers
        [.input 1 10 (inputPacket 0 2147483647), .input 1 10 (inputPacket 0 1)] = some t ∧
      ¬ AllSteps inputStep Computes twoPlayers
        [.input 1 10 (inputPacket 0 2147483647), .input 1 10 (inputPacket 0 1)] := by
  refine ⟨{ twoPlayers with input1 := 2147483648 }, by decide, ?_⟩
  decide

end

end CPong
