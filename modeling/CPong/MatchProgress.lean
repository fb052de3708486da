import CPong.MatchSettles
import CPong.Outputs

/-!
# A match goes on

No thread of a match fails on what it finds there, whatever section of another comes before its
next.
-/

namespace CPong

set_option autoImplicit false

open Lib

section
variable {F : Type}

/-- The sections that the thread of `send_state` may be before. -/
def tickSections (tick : Tick) : List (MatchSection F) :=
  [.inputs, .advance tick, .score tick.rands, .announce]

def inputSections (i : Fin 2) (garbage : Packet F) : List (MatchSection F) :=
  [.check i garbage, .accumulate]

def receiptSections (i : Fin 2) : List (MatchSection F) := [.receive i, .setSync i, .zeroInput i]

def frameSections (i : Fin 2) (up down : Bool) (deltaTime : I32) (fuel : Nat) :
    List (MatchSection F) :=
  [.paddleInputs i up down deltaTime, .localState i fuel]

/-- A tick whose call of `ball_advance` has time to pass. -/
def TakesTime : MatchSection F → Prop
  | .advance tick => 0 < tick.deltaTime.toInt
  | _ => True

/-- The score that the server counts up is one of the two. -/
def ScoresOne (s : RoundServer F) : Prop :=
  ∀ scoredIndex, s.sender = .advanced scoredIndex →
    scoredIndex = -1 ∨ scoredIndex = 0 ∨ scoredIndex = 1

end

section
variable {m : Match ℝ} {s t : MatchThreads ℝ} {ssync : I8} {i : Fin 2}

/-- No thread of the match is stuck: each can enter its next section, and the one that receives
input does not end. -/
structure NeverStuck (m : Match ℝ) (s : MatchThreads ℝ) : Prop where
  tick : ∀ (deltaTime : I32) (scoredIndex : Int) (rands : Rands), ∃ fuel,
    ∃ l ∈ tickSections ⟨deltaTime, fuel, scoredIndex, rands⟩, ∃ t, matchStep m s l = some t
  running : s.server.receiver ≠ .stopped
  input : ∀ i garbage, s.up i ≠ [] → ∃ l ∈ inputSections i garbage, ∃ t, matchStep m s l = some t
  receive : ∀ i, s.down i ≠ [] → ∃ l ∈ receiptSections i, ∃ t, matchStep m s l = some t
  frame : ∀ i c, s.clients i = some c → ∀ up down deltaTime, ∃ fuel,
    ∃ l ∈ frameSections i up down deltaTime fuel, ∃ t, matchStep m s l = some t
  network : ∀ i c, s.clients i = some c → ∃ t, matchStep m s (.network i) = some t

theorem ScoresOne.of_sender {server : RoundServer ℝ}
    (h : ∀ scoredIndex, server.sender ≠ .advanced scoredIndex) : ScoresOne server :=
  fun scoredIndex hadvanced => absurd hadvanced (h scoredIndex)

theorem sendStateAdvance_index {tick : Tick} {upds : PlayerUpds ℝ} {g g' : Globals ℝ}
    {scoredIndex : Int} (hdt : 0 < tick.deltaTime.toInt)
    (h : sendStateAdvance tick upds g = some (scoredIndex, g')) :
    scoredIndex = -1 ∨ scoredIndex = 0 ∨ scoredIndex = 1 := by
  obtain ⟨advanced, hrun, hres⟩ := Option.bind_eq_some_iff.mp h
  obtain ⟨i, hi, hvalues, -⟩ := assigned_of_pos hdt ⟨_, hrun⟩
  rw [hi] at hres
  cases hres
  exact hvalues

theorem ScoresOne.step {l : MatchSection ℝ} (hm : MatchInv m.room ssync s)
    (h : ScoresOne s.server) (htime : TakesTime l) (hstep : matchStep m s l = some t) :
    ScoresOne t.server := by
  cases l with
  | check j garbage =>
    obtain ⟨p, rest, receiver, -, -, -, rfl⟩ := matchStep_check hstep (hm.up j)
    exact h
  | accumulate =>
    obtain ⟨server, hserver, rfl⟩ := onServer_eq_some hstep
    obtain ⟨id, inputAccMs, tag, -, rfl⟩ := roundStep_accumulate hserver
    intro scoredIndex hadvanced
    exact h scoredIndex ((RoundServer.credit_sender ..).symm.trans hadvanced)
  | inputs =>
    obtain ⟨server, hserver, rfl⟩ := onServer_eq_some hstep
    obtain ⟨-, rfl⟩ := roundStep_inputs hserver
    exact .of_sender (by simp)
  | advance tick =>
    obtain ⟨server, hserver, rfl⟩ := onServer_eq_some hstep
    obtain ⟨upds, ball, scoredIndex, -, hadvance, rfl⟩ := roundStep_advance hserver
    intro scoredIndex' hadvanced
    cases hadvanced
    exact sendStateAdvance_index htime hadvance
  | score rands =>
    obtain ⟨server, hserver, rfl⟩ := onServer_eq_some hstep
    obtain ⟨scoredIndex, j, -, -, rfl⟩ := roundStep_score hserver
    exact .of_sender (by simp)
  | announce =>
    obtain ⟨k, -, rfl⟩ := matchStep_announce hstep
    exact .of_sender (by simp)
  | receive j =>
    obtain ⟨p, rest, client, -, -, rfl⟩ := hm.taken hstep
    exact h
  | setSync j =>
    obtain ⟨c, c', -, -, rfl⟩ := onClient_eq_some hstep
    exact h
  | zeroInput j =>
    obtain ⟨c, c', -, -, rfl⟩ := onClient_eq_some hstep
    exact h
  | paddleInputs j up down deltaTime =>
    obtain ⟨c, c', -, -, rfl⟩ := onClient_eq_some hstep
    exact h
  | localState j fuel =>
    obtain ⟨c, c', -, -, rfl⟩ := onClient_eq_some hstep
    exact h
  | network j =>
    obtain ⟨c, -, rfl⟩ := matchStep_network hstep
    exact h

theorem inputs_exists (h : s.server.sender = .idle) : ∃ t, matchStep m s .inputs = some t := by
  apply Option.isSome_iff_exists.mp
  simp [matchStep, onServer, roundStep, h]

theorem advance_exists {upds : PlayerUpds ℝ} (h : s.server.sender = .applied upds)
    (deltaTime : I32) (scoredIndex : Int) (rands : Rands) :
    ∃ fuel t, matchStep m s (.advance ⟨deltaTime, fuel, scoredIndex, rands⟩) = some t := by
  obtain ⟨advanced, fuel, hrun⟩ := ballAdvance_returns
    ⟨trunc s.server.globals.state.boxSize.y, 0, 0, trunc s.server.globals.state.boxSize.x⟩
    s.server.globals.state.player1 s.server.globals.state.player2 s.server.globals.state.ball
    deltaTime.toInt
  refine ⟨fuel, Option.isSome_iff_exists.mp ?_⟩
  change ballAdvance _ _ _ _ _ _ = _ at hrun
  simp [matchStep, onServer, roundStep, h, sendStateAdvance, hrun]

theorem tick_exists (h : ScoresOne s.server) (deltaTime : I32) (scoredIndex : Int)
    (rands : Rands) : ∃ fuel, ∃ l ∈ tickSections ⟨deltaTime, fuel, scoredIndex, rands⟩, ∃ t,
      matchStep m s l = some t := by
  cases hsender : s.server.sender with
  | idle => exact ⟨0, .inputs, by simp [tickSections], inputs_exists hsender⟩
  | applied upds =>
    obtain ⟨fuel, ht⟩ := advance_exists (m := m) hsender deltaTime scoredIndex rands
    exact ⟨fuel, _, by simp [tickSections], ht⟩
  | advanced scored =>
    by_cases hscored : scored = -1
    · subst hscored
      refine ⟨0, .announce, by simp [tickSections], Option.isSome_iff_exists.mp ?_⟩
      simp [matchStep, roundStep, hsender]
    · refine ⟨0, .score rands, by simp [tickSections], Option.isSome_iff_exists.mp ?_⟩
      rcases (h scored hsender).resolve_left hscored with rfl | rfl
      · simp [matchStep, onServer, roundStep, hsender, sendStateScore, playerIndex]
      · simp [matchStep, onServer, roundStep, hsender, sendStateScore, playerIndex]
  | scored =>
    refine ⟨0, .announce, by simp [tickSections], Option.isSome_iff_exists.mp ?_⟩
    simp [matchStep, roundStep, hsender]

theorem paddleInputs_exists {c : ClientThreads ℝ} (hc : s.clients i = some c)
    (hframe : c.frame = none) (up down : Bool) (deltaTime : I32) :
    ∃ t, matchStep m s (.paddleInputs i up down deltaTime) = some t := by
  apply Option.isSome_iff_exists.mp
  simp [matchStep, onClient, hc, clientStep, hframe]

theorem localState_exists {c : ClientThreads ℝ} (hc : s.clients i = some c)
    (hframe : c.frame ≠ none) : ∃ fuel t, matchStep m s (.localState i fuel) = some t := by
  obtain ⟨frame, hframe⟩ := Option.ne_none_iff_exists'.mp hframe
  obtain ⟨fuel, localState, hlocal⟩ :=
    updateLocalState_returns c.args.localState frame.2.toInt frame.1
  refine ⟨fuel, Option.isSome_iff_exists.mp ?_⟩
  simp [matchStep, onClient, hc, clientStep, hframe, hlocal]

theorem frame_exists {c : ClientThreads ℝ} (hc : s.clients i = some c) (up down : Bool)
    (deltaTime : I32) : ∃ fuel, ∃ l ∈ frameSections i up down deltaTime fuel, ∃ t,
      matchStep m s l = some t := by
  by_cases hframe : c.frame = none
  · exact ⟨0, .paddleInputs i up down deltaTime, by simp [frameSections],
      paddleInputs_exists hc hframe up down deltaTime⟩
  · obtain ⟨fuel, ht⟩ := localState_exists (m := m) hc hframe
    exact ⟨fuel, .localState i fuel, by simp [frameSections], ht⟩

/-- In no state of a match whose ticks take time is a thread stuck. -/
theorem match_never_stuck {rands : Rands} {g : Globals ℝ} {ls : List (MatchSection ℝ)}
    (h : System.run (matchStep m) (matchBegin m rands g) ls = some s)
    (htime : ∀ l ∈ ls, TakesTime l) : NeverStuck m s := by
  have hinv := SettleInv.of_run h
  have hall : System.AllSteps (matchStep m) (fun _ l => True ∧ TakesTime l)
      (matchBegin m rands g) ls := (System.allSteps_true _ ls).and_mem htime
  have hscores : ScoresOne s.server := by
    have hstart : MatchInv m.room g.ssync (matchBegin m rands g) ∧
        ScoresOne (matchBegin m rands g).server :=
      ⟨.start rands g, .of_sender (by simp [matchBegin, RoundServer.initial])⟩
    exact (System.invariant_of_allSteps
      (I := fun s => MatchInv m.room g.ssync s ∧ ScoresOne s.server)
      (fun _ _ _ hs hC hstep => ⟨hs.1.step hstep, hs.2.step hs.1 hC.2 hstep⟩) hstart hall h).2
  refine ⟨fun deltaTime scoredIndex rands => tick_exists hscores deltaTime scoredIndex rands,
    hinv.scores.running, fun i garbage hup => ?_, fun i hdown => ?_,
    fun i c hc up down deltaTime => frame_exists hc up down deltaTime, fun i c hc => ?_⟩
  · cases hr : s.server.receiver with
    | stopped => exact absurd hr hinv.scores.running
    | idle =>
      obtain ⟨p, rest, hp⟩ := List.exists_cons_of_ne_nil hup
      exact ⟨.check i garbage, by simp [inputSections], check_exists hp hr garbage⟩
    | checked id inputAccMs tag =>
      refine ⟨.accumulate, by simp [inputSections], Option.isSome_iff_exists.mp ?_⟩
      simp [matchStep, onServer, roundStep, hr]
  · by_cases hleft : receiptLeft (s.clients i) = 0
    · obtain ⟨p, rest, hp⟩ := List.exists_cons_of_ne_nil hdown
      exact ⟨.receive i, by simp [receiptSections], receive_exists hinv.inv hp hleft⟩
    · cases hc : s.clients i with
      | none =>
        rw [hc] at hleft
        exact absurd rfl hleft
      | some c =>
        rw [hc] at hleft
        rcases receipt_exists (m := m) hc hleft with ht | ht
        · exact ⟨.setSync i, by simp [receiptSections], ht⟩
        · exact ⟨.zeroInput i, by simp [receiptSections], ht⟩
  · refine Option.isSome_iff_exists.mp ?_
    simp [matchStep, hc, clientStep]

end

noncomputable def realMatch : Match ℝ :=
  ⟨⟨![1, 2]⟩, ⟨.little, fun _ => 0⟩, ![⟨.little, fun _ => 0⟩, ⟨.big, fun _ => 0⟩]⟩

/-- The second client joins and plays a frame while the server ticks. -/
def firstFrame (fuel fuel' : Nat) : List (MatchSection ℝ) :=
  [.receive 1, .paddleInputs 1 false true 16, .inputs, .advance ⟨16, fuel, 7, ⟨0, 0, 0⟩⟩,
    .localState 1 fuel']

theorem firstFrame_exists :
    ∃ fuel fuel' s c, System.run (matchStep realMatch) (matchBegin realMatch ⟨0, 1, 1⟩ .zero)
      (firstFrame fuel fuel') = some s ∧ s.clients 1 = some c := by
  have hinv : MatchInv realMatch.room _ (matchBegin realMatch ⟨0, 1, 1⟩ .zero) :=
    .start ⟨0, 1, 1⟩ .zero
  obtain ⟨s₁, h₁⟩ := receive_exists (i := 1) hinv rfl rfl
  obtain ⟨p, rest, c, -, htaken, hs₁⟩ := hinv.taken h₁
  have hc₁ : s₁.clients 1 = some c := by
    rw [hs₁]
    simp only [Function.update_self]
  have hframe : c.frame = none := by
    cases htaken with
    | first htype => rfl
  obtain ⟨s₂, h₂⟩ := paddleInputs_exists (m := realMatch) hc₁ hframe false true 16
  obtain ⟨_, c₂, -, hnext, hs₂⟩ := onClient_eq_some h₂
  obtain ⟨-, rfl⟩ := clientStep_paddleInputs hnext
  have hidle : s₂.server.sender = .idle := by
    rw [hs₂, hs₁]
    rfl
  obtain ⟨s₃, h₃⟩ := inputs_exists (m := realMatch) hidle
  obtain ⟨server, hserver, hs₃⟩ := onServer_eq_some h₃
  obtain ⟨-, rfl⟩ := roundStep_inputs hserver
  obtain ⟨fuel, s₄, h₄⟩ := advance_exists (m := realMatch) (s := s₃) (by rw [hs₃]) 16 7 ⟨0, 0, 0⟩
  obtain ⟨server, -, hs₄⟩ := onServer_eq_some h₄
  have hc₄ : s₄.clients 1 = s₂.clients 1 := by rw [hs₄, hs₃]
  rw [hs₂] at hc₄
  simp only [Function.update_self] at hc₄
  obtain ⟨fuel', s₅, h₅⟩ := localState_exists (m := realMatch) hc₄ (by simp)
  obtain ⟨_, c₅, -, -, hs₅⟩ := onClient_eq_some h₅
  refine ⟨fuel, fuel', s₅, c₅, ?_, ?_⟩
  · simp only [firstFrame, System.run, h₁, h₂, h₃, h₄, h₅, Option.bind_some]
  · rw [hs₅]
    simp only [Function.update_self]

theorem match_never_stuck_firstFrame :
    ∃ fuel fuel' s, System.run (matchStep realMatch) (matchBegin realMatch ⟨0, 1, 1⟩ .zero)
      (firstFrame fuel fuel') = some s ∧ NeverStuck realMatch s := by
  obtain ⟨fuel, fuel', s, c, hs, -⟩ := firstFrame_exists
  have htime : ∀ l ∈ firstFrame fuel fuel', TakesTime l := by
    simp [firstFrame, TakesTime]
  exact ⟨fuel, fuel', s, hs, match_never_stuck hs htime⟩

end CPong
