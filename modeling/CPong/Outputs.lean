import CPong.BallTermination
import CPong.Server

/-!
# What a tick leaves in its out-parameters

`ball_advance` writes `*scored_index` in its loop, so a call whose loop makes no trip leaves
it as it was. `send_state` then reads a variable that it has not initialised.
-/

namespace CPong

set_option autoImplicit false

open Lib (trunc)
open Lib.Loop (Evals Head)

/-- Both out-parameters tell the same, and `*scored_index` is one of the three values it is
meant to take. -/
def Assigned {F : Type} (r : Advanced F) : Prop :=
  ∃ i, r.scoredIndex = some i ∧ (i = -1 ∨ i = 0 ∨ i = 1) ∧ (r.ballUpd.isSome ↔ i = -1)

section Calls
variable {F : Type} [Field F] [LinearOrder F] [FloorRing F] [Libm F] {wall : Wall}
  {paddle1 paddle2 ball : GameObj F} {deltaTime : Int} {r : Advanced F}

variable [IsStrictOrderedRing F]

theorem advanceBody_start (h : ¬ 0 < deltaTime) :
    advanceBody wall paddle1 paddle2 deltaTime (advanceStart ball) = .inr ⟨some ball, none⟩ := by
  have htime : ¬ (0 : F) < deltaTime := by exact_mod_cast h
  exact if_neg htime

/-- Every trip that goes round again has written `*scored_index`. -/
theorem Head.start_or_assigned {s : AdvanceState F}
    (h : Head (advanceBody wall paddle1 paddle2 deltaTime) (advanceStart ball) s) :
    s = advanceStart ball ∨ s.scoredIndex = some (-1) := by
  refine Head.invariant (I := fun a => a = advanceStart ball ∨ a.scoredIndex = some (-1))
    (Or.inl rfl) ?_ h
  intro a b _ _ hab
  have htrip := advanceBody_trip wall paddle1 paddle2 deltaTime a
  rw [hab] at htrip
  cases htrip with
  | bounce htime c hfirst hne hhit => exact Or.inr rfl

theorem assigned_of_pos (hdt : 0 < deltaTime)
    (h : Evals (advanceBody wall paddle1 paddle2 deltaTime) (advanceStart ball) r) :
    Assigned r := by
  obtain ⟨s, hs, hout⟩ := Lib.Loop.evals_iff.mp h
  have htrip := advanceBody_trip wall paddle1 paddle2 deltaTime s
  rw [hout] at htrip
  cases htrip with
  | timeUp htime =>
    rcases Head.start_or_assigned hs with rfl | hindex
    · have hstart : (0 : F) < deltaTime := by exact_mod_cast hdt
      exact absurd hstart htime
    · exact ⟨-1, hindex, Or.inl rfl, by simp⟩
  | free htime hnone => exact ⟨-1, rfl, Or.inl rfl, by simp⟩
  | score htime i hi hfirst heq =>
    refine ⟨i, rfl, Or.inr hi, ?_⟩
    have hne : i ≠ -1 := by omega
    simp [hne]

end Calls

section Ticks
variable (wall : Wall) (paddle1 paddle2 ball : GameObj ℝ) (deltaTime : Int)

/-- The call returns with both out-parameters assigned. -/
def ReturnsAssigned : Prop :=
  ∃ fuel r, ballAdvance fuel wall paddle1 paddle2 ball deltaTime = some r ∧ Assigned r

/-- Whatever `scored_index` holds at first, `send_state` goes on to its broadcast, that is, the
score that it counts up is one of the two; where nobody scores, it takes over a ball that
`ball_advance` has computed. -/
def TickDefined (deltaTime : I32) (rands : Rands) (g : Globals ℝ) : Prop :=
  ∀ scoredIndex, ∃ fuel packet g',
    sendState ⟨deltaTime, fuel, scoredIndex, rands⟩ g = some (packet, g') ∧
      (packet.type = CpongPacket.state.code → ∃ r upd,
        ballAdvance fuel ⟨trunc g.state.boxSize.y, 0, 0, trunc g.state.boxSize.x⟩
          (sendStateInputs g).2.state.player1 (sendStateInputs g).2.state.player2 g.state.ball
          deltaTime.toInt = some r ∧ r.ballUpd = some upd ∧ g'.state.ball = upd)

theorem returnsAssigned_iff :
    ReturnsAssigned wall paddle1 paddle2 ball deltaTime ↔ 0 < deltaTime := by
  constructor
  · rintro ⟨fuel, r, hrun, i, hi, -⟩
    by_contra hdt
    have hstop : Evals (advanceBody wall paddle1 paddle2 deltaTime) (advanceStart ball) _ :=
      Lib.Loop.evals_iff.mpr ⟨_, .refl _, advanceBody_start hdt⟩
    rw [Evals.unique ⟨fuel, hrun⟩ hstop] at hi
    cases hi
  · intro hdt
    obtain ⟨r, fuel, hrun⟩ := ballAdvance_returns wall paddle1 paddle2 ball deltaTime
    exact ⟨fuel, r, hrun, assigned_of_pos hdt ⟨fuel, hrun⟩⟩

/-- Without time `send_state` acts on what `scored_index` held before. -/
theorem sendStateAdvance_stopped {tick : Tick} (hdt : ¬ 0 < tick.deltaTime.toInt)
    (upds : PlayerUpds ℝ) (g : Globals ℝ) {scoredIndex : Int} {g' : Globals ℝ}
    (h : sendStateAdvance tick upds g = some (scoredIndex, g')) :
    scoredIndex = tick.scoredIndex := by
  obtain ⟨advanced, hrun, hres⟩ := Option.bind_eq_some_iff.mp h
  have hstop : Evals (advanceBody ⟨trunc g.state.boxSize.y, 0, 0, trunc g.state.boxSize.x⟩
      g.state.player1 g.state.player2 tick.deltaTime.toInt) (advanceStart g.state.ball) _ :=
    Lib.Loop.evals_iff.mpr ⟨_, .refl _, advanceBody_start hdt⟩
  rw [Evals.unique ⟨_, hrun⟩ hstop] at hres
  cases hres
  rfl

theorem tickDefined_iff (deltaTime : I32) (rands : Rands) (g : Globals ℝ) :
    TickDefined deltaTime rands g ↔ 0 < deltaTime.toInt := by
  constructor
  · intro h
    by_contra hdt
    obtain ⟨fuel, packet, g', hrun, -⟩ := h 7
    obtain ⟨scoredIndex, moved, hadvance, ⟨hminus, -⟩ | ⟨i, hi, -⟩⟩ := sendState_cases hrun
    · rw [sendStateAdvance_stopped hdt _ _ hadvance] at hminus
      cases hminus
    · rw [sendStateAdvance_stopped hdt _ _ hadvance] at hi
      cases hi
  · intro hdt scoredIndex
    obtain ⟨fuel, r, hrun, i, hi, hvalues, hassigned⟩ := (returnsAssigned_iff
      ⟨trunc g.state.boxSize.y, 0, 0, trunc g.state.boxSize.x⟩
      (sendStateInputs g).2.state.player1 (sendStateInputs g).2.state.player2 g.state.ball
      deltaTime.toInt).mpr hdt
    have hadvance : sendStateAdvance ⟨deltaTime, fuel, scoredIndex, rands⟩ (sendStateInputs g).1
        (sendStateInputs g).2 = some (i, moveObjects (sendStateInputs g).1
          (r.ballUpd.getD .zero) (sendStateInputs g).2) := by
      refine Option.bind_eq_some_iff.mpr ⟨r, hrun, ?_⟩
      rw [hi]
      rfl
    by_cases hscored : i = -1
    · subst hscored
      obtain ⟨upd, hupd⟩ := Option.isSome_iff_exists.mp (hassigned.mpr rfl)
      refine ⟨fuel, _, _, sendState_playOn hadvance, fun _ => ⟨r, upd, hrun, hupd, ?_⟩⟩
      rw [hupd]
      rfl
    · obtain ⟨j, hj⟩ : ∃ j, playerIndex i = some j := by
        rcases hvalues.resolve_left hscored with rfl | rfl
        · exact ⟨0, rfl⟩
        · exact ⟨1, rfl⟩
      refine ⟨fuel, _, _, sendState_scored hadvance hscored hj, fun htype => ?_⟩
      change CpongPacket.init.code = CpongPacket.state.code at htype
      cases htype

/-- The outputs are assigned, and `send_state` may rely on them, exactly in a call with time. -/
theorem outputs_defined_iff :
    (ReturnsAssigned wall paddle1 paddle2 ball deltaTime ↔ 0 < deltaTime) ∧
      ∀ (deltaTime : I32) (rands : Rands) (g : Globals ℝ),
        TickDefined deltaTime rands g ↔ 0 < deltaTime.toInt :=
  ⟨returnsAssigned_iff wall paddle1 paddle2 ball deltaTime,
    fun deltaTime rands g => tickDefined_iff deltaTime rands g⟩

/-- A tick of no time. -/
theorem outputs_undefined_zeroTick :
    ballAdvance 1 ⟨320, 0, 0, 480⟩ .zero .zero (.zero : GameObj ℝ) 0 =
        some ⟨some .zero, none⟩ ∧
      ¬ ReturnsAssigned ⟨320, 0, 0, 480⟩ .zero .zero .zero 0 ∧
      sendState ⟨0, 1, 7, ⟨0, 0, 0⟩⟩ (Globals.zero : Globals ℝ) = none := by
  have hrun : ballAdvance 1 ⟨320, 0, 0, 480⟩ .zero .zero (.zero : GameObj ℝ) 0 =
      some ⟨some .zero, none⟩ := Lib.Loop.run_succ_inr (advanceBody_start (by decide))
  refine ⟨hrun, ?_, ?_⟩
  · rintro ⟨fuel, r, hret, i, hi, -⟩
    rw [Evals.unique ⟨fuel, hret⟩ ⟨1, hrun⟩] at hi
    cases hi
  · cases hsend : sendState ⟨0, 1, 7, ⟨0, 0, 0⟩⟩ (Globals.zero : Globals ℝ) with
    | none => rfl
    | some sent =>
      obtain ⟨scoredIndex, moved, hadvance, ⟨hminus, -⟩ | ⟨i, hi, -⟩⟩ := sendState_cases hsend
      · rw [sendStateAdvance_stopped (by decide) _ _ hadvance] at hminus
        cases hminus
      · rw [sendStateAdvance_stopped (by decide) _ _ hadvance] at hi
        cases hi

end Ticks

end CPong
