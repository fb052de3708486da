import CPong.Server
import CPong.Lib.System
import CPong.Lib.Tally
import Mathlib.Data.BitVec

/-!
# The rounds of one room

The sections of `on_input_ready` and `send_state` under their mutexes, one step each, in
any interleaving. Every amount in `input1` and `input2` is tagged with the round of the
packet that brought it.
-/

namespace CPong

set_option autoImplicit false

open Lib
open Lib.Tally (Entry record total total_record mem_record)

/-- A round by the value of `ssync` and by its number since the start of the game. -/
structure RoundTag where
  sync : I8
  round : Nat
deriving DecidableEq, Repr

/-- Where the thread of `send_state` is. -/
inductive Sender (F : Type) where
  | idle
  | applied (upds : PlayerUpds F)
  | advanced (scoredIndex : Int)
  | scored
deriving DecidableEq

/-- Where the thread of `on_input_ready` is. -/
inductive Receiver where
  | idle
  | checked (id inputAccMs : I32) (tag : RoundTag)
  | stopped
deriving DecidableEq, Repr

/-- One application of the accumulated input to the paddles, and where it came from. -/
structure Move where
  tag : RoundTag
  input1 : I32
  input2 : I32
  from1 : List (Entry RoundTag I32)
  from2 : List (Entry RoundTag I32)
deriving DecidableEq, Repr

structure RoundServer (F : Type) where
  globals : Globals F
  sender : Sender F
  receiver : Receiver
  sent : List (Packet F)
  round : Nat
  pending1 : List (Entry RoundTag I32)
  pending2 : List (Entry RoundTag I32)
  moves : List Move
deriving DecidableEq

inductive RoundSection (F : Type) where
  | check (id : I32) (res : Int) (packet : Packet F)
  | accumulate
  | inputs
  | advance (tick : Tick)
  | score (rands : Rands)
  | announce

section
variable {F : Type}

def RoundServer.tag (s : RoundServer F) : RoundTag := ⟨s.globals.ssync, s.round⟩

/-- The history of the accumulator that `on_input_ready` adds to. -/
def RoundServer.credit (s : RoundServer F) (id : I32) (entry : Entry RoundTag I32) :
    RoundServer F :=
  if s.globals.state.playerIds 0 = id then { s with pending1 := record s.pending1 entry }
  else if s.globals.state.playerIds 1 = id then { s with pending2 := record s.pending2 entry }
  else s

@[simp] theorem RoundServer.credit_sender (s : RoundServer F) (id : I32)
    (entry : Entry RoundTag I32) : (s.credit id entry).sender = s.sender := by
  unfold RoundServer.credit
  split_ifs <;> rfl

@[simp] theorem RoundServer.credit_sent (s : RoundServer F) (id : I32)
    (entry : Entry RoundTag I32) : (s.credit id entry).sent = s.sent := by
  unfold RoundServer.credit
  split_ifs <;> rfl

@[simp] theorem RoundServer.credit_round (s : RoundServer F) (id : I32)
    (entry : Entry RoundTag I32) : (s.credit id entry).round = s.round := by
  unfold RoundServer.credit
  split_ifs <;> rfl

variable [Field F] [LinearOrder F] [FloorRing F] [Libm F]

def roundStep (s : RoundServer F) (l : RoundSection F) : Option (RoundServer F) :=
  match l, s.sender, s.receiver with
  | .check id res packet, _, .idle =>
    if res = 0 then some { s with receiver := .stopped }
    else if packet.sync ≠ s.globals.ssync then some s
    else if packet.type ≠ CpongPacket.input.code then some s
    else
      some { s with receiver := .checked id packet.data.inputAccMs ⟨packet.sync, s.round⟩ }
  | .accumulate, _, .checked id inputAccMs tag =>
    let credited := s.credit id ⟨tag, inputAccMs⟩
    some { credited with
      globals := onInputReadyAccumulate s.globals id inputAccMs
      receiver := .idle }
  | .inputs, .idle, _ =>
    some { s with
      globals := (sendStateInputs s.globals).2
      sender := .applied (sendStateInputs s.globals).1
      pending1 := []
      pending2 := []
      moves := s.moves ++
        [⟨s.tag, s.globals.input1, s.globals.input2, s.pending1, s.pending2⟩] }
  | .advance tick, .applied upds, _ =>
    (sendStateAdvance tick upds s.globals).map fun (scoredIndex, g) =>
      { s with globals := g, sender := .advanced scoredIndex }
  | .score rands, .advanced scoredIndex, _ =>
    if scoredIndex ≠ -1 then
      (sendStateScore scoredIndex rands s.globals).map fun g =>
        { s with globals := g, sender := .scored, round := s.round + 1 }
    else none
  | .announce, .advanced scoredIndex, _ =>
    if scoredIndex ≠ -1 then none
    else
      some { s with sender := .idle, sent := s.sent ++ [sendStatePacket .state s.globals] }
  | .announce, .scored, _ =>
    some { s with sender := .idle, sent := s.sent ++ [sendStatePacket .init s.globals] }
  | _, _, _ => none

def RoundServer.initial (room : Room) (rands : Rands) (g : Globals F) : RoundServer F :=
  { globals := (startPongGame room rands { g with input1 := 0, input2 := 0 }).2
    sender := .idle
    receiver := .idle
    sent := []
    round := 0
    pending1 := []
    pending2 := []
    moves := [] }

variable {s t : RoundServer F}

-- makes the equations of `roundStep` here, once for all the lemmas below
attribute [local simp] roundStep

theorem roundStep_check {id : I32} {res : Int} {packet : Packet F}
    (h : roundStep s (.check id res packet) = some t) :
    s.receiver = .idle ∧ (res = 0 ∧ t = { s with receiver := .stopped } ∨
      ¬ (packet.sync = s.globals.ssync ∧ packet.type = CpongPacket.input.code) ∧ t = s ∨
      res ≠ 0 ∧ packet.sync = s.globals.ssync ∧ packet.type = CpongPacket.input.code ∧
        t = { s with receiver := .checked id packet.data.inputAccMs ⟨packet.sync, s.round⟩ }) := by
  cases hr : s.receiver with
  | idle =>
    refine ⟨rfl, ?_⟩
    simp only [roundStep, hr] at h
    by_cases hres : res = 0
    · rw [if_pos hres] at h
      cases h
      exact Or.inl ⟨hres, rfl⟩
    rw [if_neg hres] at h
    by_cases hsync : packet.sync ≠ s.globals.ssync
    · rw [if_pos hsync] at h
      cases h
      exact Or.inr (Or.inl ⟨fun hboth => hsync hboth.1, rfl⟩)
    rw [if_neg hsync] at h
    by_cases htype : packet.type ≠ CpongPacket.input.code
    · rw [if_pos htype] at h
      cases h
      exact Or.inr (Or.inl ⟨fun hboth => htype hboth.2, rfl⟩)
    rw [if_neg htype] at h
    cases h
    exact Or.inr (Or.inr ⟨hres, not_not.mp hsync, not_not.mp htype, rfl⟩)
  | checked id' ms tag =>
    simp only [roundStep, hr] at h
    cases h
  | stopped =>
    simp only [roundStep, hr] at h
    cases h

theorem roundStep_accumulate (h : roundStep s .accumulate = some t) :
    ∃ id inputAccMs tag, s.receiver = .checked id inputAccMs tag ∧
      t = { s.credit id ⟨tag, inputAccMs⟩ with
        globals := onInputReadyAccumulate s.globals id inputAccMs
        receiver := .idle } := by
  cases hr : s.receiver with
  | checked id ms tag =>
    simp only [roundStep, hr] at h
    cases h
    exact ⟨id, ms, tag, rfl, rfl⟩
  | idle =>
    simp only [roundStep, hr] at h
    cases h
  | stopped =>
    simp only [roundStep, hr] at h
    cases h

theorem roundStep_inputs (h : roundStep s .inputs = some t) :
    s.sender = .idle ∧ t = { s with
      globals := (sendStateInputs s.globals).2
      sender := .applied (sendStateInputs s.globals).1
      pending1 := []
      pending2 := []
      moves := s.moves ++
        [⟨s.tag, s.globals.input1, s.globals.input2, s.pending1, s.pending2⟩] } := by
  cases hs : s.sender with
  | idle =>
    simp only [roundStep, hs] at h
    cases h
    exact ⟨rfl, rfl⟩
  | _ =>
    simp only [roundStep, hs] at h
    cases h

theorem roundStep_advance {tick : Tick} (h : roundStep s (.advance tick) = some t) :
    ∃ upds ball scoredIndex, s.sender = .applied upds ∧
      sendStateAdvance tick upds s.globals =
        some (scoredIndex, moveObjects upds ball s.globals) ∧
      t = { s with globals := moveObjects upds ball s.globals, sender := .advanced scoredIndex } := by
  cases hs : s.sender with
  | applied upds =>
    simp only [roundStep, hs, Option.map_eq_some_iff] at h
    obtain ⟨⟨scoredIndex, g⟩, hadvance, rfl⟩ := h
    obtain ⟨advanced, -, hres⟩ := Option.bind_eq_some_iff.mp hadvance
    cases hres
    exact ⟨upds, _, _, rfl, hadvance, rfl⟩
  | _ =>
    simp only [roundStep, hs] at h
    cases h

theorem roundStep_score {rands : Rands} (h : roundStep s (.score rands) = some t) :
    ∃ scoredIndex i, s.sender = .advanced scoredIndex ∧ scoredIndex ≠ -1 ∧ t = { s with
      globals := scorePoint i rands s.globals
      sender := .scored
      round := s.round + 1 } := by
  cases hs : s.sender with
  | advanced scoredIndex =>
    simp only [roundStep, hs] at h
    by_cases hscored : scoredIndex ≠ -1
    · rw [if_pos hscored, Option.map_eq_some_iff] at h
      obtain ⟨g, hscore, rfl⟩ := h
      obtain ⟨i, -, hpoint⟩ := Option.bind_eq_some_iff.mp hscore
      cases hpoint
      exact ⟨scoredIndex, i, rfl, hscored, rfl⟩
    · rw [if_neg hscored] at h
      cases h
  | _ =>
    simp only [roundStep, hs] at h
    cases h

theorem roundStep_announce (h : roundStep s .announce = some t) :
    ∃ k, (s.sender = .advanced (-1) ∧ k = .state ∨ s.sender = .scored ∧ k = .init) ∧
      t = { s with sender := .idle, sent := s.sent ++ [sendStatePacket k s.globals] } := by
  cases hs : s.sender with
  | advanced scoredIndex =>
    simp only [roundStep, hs] at h
    by_cases hscored : scoredIndex ≠ -1
    · rw [if_pos hscored] at h
      cases h
    · rw [if_neg hscored] at h
      cases h
      exact ⟨.state, Or.inl ⟨by rw [not_not.mp hscored], rfl⟩, rfl⟩
  | scored =>
    simp only [roundStep, hs] at h
    cases h
    exact ⟨.init, Or.inr ⟨rfl, rfl⟩, rfl⟩
  | _ =>
    simp only [roundStep, hs] at h
    cases h

theorem onInputReady_sections (hidle : s.receiver = .idle) (id : I32) {res : Int}
    (hres : res ≠ 0) (packet : Packet F) :
    ∃ ls t, (ls = [] ∨ ls = [.accumulate]) ∧
      System.run roundStep s (.check id res packet :: ls) = some t ∧ t.receiver = .idle ∧
      t.sender = s.sender ∧ t.globals = (onInputReady s.globals id res packet).2 := by
  by_cases hsync : packet.sync ≠ s.globals.ssync
  · refine ⟨[], s, Or.inl rfl, ?_, hidle, rfl, ?_⟩
    · simp only [System.run, roundStep, hidle, if_neg hres, if_pos hsync, Option.bind_some]
    · simp only [onInputReady, if_neg hres, if_pos hsync]
  by_cases htype : packet.type ≠ CpongPacket.input.code
  · refine ⟨[], s, Or.inl rfl, ?_, hidle, rfl, ?_⟩
    · simp only [System.run, roundStep, hidle, if_neg hres, if_neg hsync, if_pos htype,
        Option.bind_some]
    · simp only [onInputReady, if_neg hres, if_neg hsync, if_pos htype]
  · refine ⟨[.accumulate], ?_⟩
    simp only [System.run, roundStep, hidle, onInputReady, if_neg hres, if_neg hsync, if_neg htype,
      Option.bind_some]
    exact ⟨_, Or.inr trivial, rfl, rfl, RoundServer.credit_sender _ _ _, rfl⟩

theorem roundStep_announce_eq {k : CpongPacket}
    (hk : s.sender = .advanced (-1) ∧ k = .state ∨ s.sender = .scored ∧ k = .init) :
    roundStep s .announce =
      some { s with sender := .idle, sent := s.sent ++ [sendStatePacket k s.globals] } := by
  rcases hk with ⟨hsender, rfl⟩ | ⟨hsender, rfl⟩
  · simp only [roundStep, hsender, ne_eq, not_true_eq_false, if_false]
  · simp only [roundStep, hsender]

/-- What is left to do of a tick is then to send its packet. -/
theorem sendState_sections {tick : Tick} {packet : Packet F} {g : Globals F}
    (hidle : s.sender = .idle) (h : sendState tick s.globals = some (packet, g)) :
    ∃ ls t k, (ls = [] ∨ ls = [.score tick.rands]) ∧
      System.run roundStep s (.inputs :: .advance tick :: ls) = some t ∧
      (t.sender = .advanced (-1) ∧ k = .state ∨ t.sender = .scored ∧ k = .init) ∧
      t.receiver = s.receiver ∧ t.globals = g ∧ t.sent = s.sent ∧
      packet = sendStatePacket k g := by
  obtain ⟨scoredIndex, ball, hadvance, hcases⟩ := sendState_cases h
  rcases hcases with ⟨rfl, rfl, rfl⟩ | ⟨i, hi, rfl, rfl⟩
  · refine ⟨[], ?_⟩
    simp only [System.run, roundStep, hidle, hadvance, Option.map_some, Option.bind_some]
    exact ⟨_, .state, Or.inl trivial, rfl, Or.inl ⟨rfl, rfl⟩, rfl, rfl, rfl, rfl⟩
  · have hscored : scoredIndex ≠ -1 := by
      rintro rfl
      cases hi
    have hpoint : sendStateScore scoredIndex tick.rands
        (moveObjects (sendStateInputs s.globals).1 ball (sendStateInputs s.globals).2) =
        some (scorePoint i tick.rands
          (moveObjects (sendStateInputs s.globals).1 ball (sendStateInputs s.globals).2)) := by
      rw [sendStateScore, hi]
      rfl
    refine ⟨[.score tick.rands], ?_⟩
    simp only [System.run, roundStep, hidle, hadvance, Option.map_some, Option.bind_some,
      if_pos hscored, hpoint]
    exact ⟨_, .init, Or.inr trivial, rfl, Or.inr ⟨rfl, rfl⟩, rfl, rfl, rfl, rfl⟩

/-- All of the input that moves the paddles belongs to the round in which it moves them. -/
def Move.OfRound (m : Move) : Prop :=
  m.input1 = total m.from1 ∧ m.input2 = total m.from2 ∧
    (∀ e ∈ m.from1, e.tag = m.tag) ∧ ∀ e ∈ m.from2, e.tag = m.tag

/-- The round of the input that `on_input_ready` has accepted but not yet added to an
accumulator. -/
def RoundServer.holding (s : RoundServer F) : Option RoundTag :=
  match s.receiver with
  | .checked id inputAccMs tag =>
    if inputAccMs ≠ 0 ∧ (s.globals.state.playerIds 0 = id ∨ s.globals.state.playerIds 1 = id)
    then some tag else none
  | _ => none

/-- A round ends when all accepted input has been applied. -/
def RoundSettled (s : RoundServer F) (l : RoundSection F) : Prop :=
  match l with
  | .score _ => s.pending1 = [] ∧ s.pending2 = [] ∧ s.holding = none
  | _ => True

structure InRound (s : RoundServer F) : Prop where
  input1 : s.globals.input1 = total s.pending1
  input2 : s.globals.input2 = total s.pending2
  pending1 : ∀ e ∈ s.pending1, e.tag = s.tag
  pending2 : ∀ e ∈ s.pending2, e.tag = s.tag
  holding : ∀ tag, s.holding = some tag → tag = s.tag
  moves : ∀ m ∈ s.moves, m.OfRound

theorem InRound.check {id : I32} {res : Int} {packet : Packet F} (hs : InRound s)
    (h : roundStep s (.check id res packet) = some t) : InRound t := by
  obtain ⟨-, ⟨-, rfl⟩ | ⟨-, rfl⟩ | ⟨-, hsync, -, rfl⟩⟩ := roundStep_check h
  · refine ⟨hs.input1, hs.input2, hs.pending1, hs.pending2, ?_, hs.moves⟩
    intro tag htag
    cases htag
  · exact hs
  · refine ⟨hs.input1, hs.input2, hs.pending1, hs.pending2, ?_, hs.moves⟩
    intro tag htag
    simp only [RoundServer.holding, Option.ite_none_right_eq_some, Option.some.injEq] at htag
    rw [← htag.2, hsync]
    rfl

theorem InRound.accumulate (hs : InRound s) (h : roundStep s .accumulate = some t) :
    InRound t := by
  obtain ⟨id, ms, tag, hchecked, rfl⟩ := roundStep_accumulate h
  have hnew : ∀ {entries : List (Entry RoundTag I32)} {e : Entry RoundTag I32},
      (s.globals.state.playerIds 0 = id ∨ s.globals.state.playerIds 1 = id) →
      (∀ e ∈ entries, e.tag = s.tag) → e ∈ record entries ⟨tag, ms⟩ → e.tag = s.tag := by
    intro entries e hplays hentries he
    rcases mem_record he with he | ⟨rfl, hms⟩
    · exact hentries e he
    · apply hs.holding
      simp only [RoundServer.holding, hchecked]
      exact if_pos ⟨hms, hplays⟩
  have hfree : ∀ tag', (none : Option RoundTag) = some tag' → tag' = s.tag := by
    intro tag' htag
    cases htag
  by_cases h0 : s.globals.state.playerIds 0 = id
  · simp only [RoundServer.credit, onInputReadyAccumulate, if_pos h0]
    refine ⟨?_, hs.input2, fun e he => hnew (Or.inl h0) hs.pending1 he, hs.pending2,
      hfree, hs.moves⟩
    rw [total_record, ← hs.input1]
  by_cases h1 : s.globals.state.playerIds 1 = id
  · simp only [RoundServer.credit, onInputReadyAccumulate, if_neg h0, if_pos h1]
    refine ⟨hs.input1, ?_, hs.pending1, fun e he => hnew (Or.inr h1) hs.pending2 he,
      hfree, hs.moves⟩
    rw [total_record, ← hs.input2]
  · simp only [RoundServer.credit, onInputReadyAccumulate, if_neg h0, if_neg h1]
    exact ⟨hs.input1, hs.input2, hs.pending1, hs.pending2,
      hfree, hs.moves⟩

theorem InRound.inputs (hs : InRound s) (h : roundStep s .inputs = some t) : InRound t := by
  rw [(roundStep_inputs h).2]
  refine ⟨rfl, rfl, ?_, ?_, hs.holding, ?_⟩
  · intro e he
    cases he
  · intro e he
    cases he
  · intro m hm
    rcases List.mem_append.mp hm with hm | hm
    · exact hs.moves m hm
    · rw [List.mem_singleton.mp hm]
      exact ⟨hs.input1, hs.input2, hs.pending1, hs.pending2⟩

theorem InRound.score {rands : Rands} (hs : InRound s) (hsettled : RoundSettled s (.score rands))
    (h : roundStep s (.score rands) = some t) : InRound t := by
  obtain ⟨h1, h2, hnone⟩ := hsettled
  obtain ⟨scoredIndex, i, -, -, rfl⟩ := roundStep_score h
  refine ⟨hs.input1, hs.input2, ?_, ?_, ?_, hs.moves⟩
  · intro e he
    rw [h1] at he
    cases he
  · intro e he
    rw [h2] at he
    cases he
  · intro tag htag
    exact absurd (hnone.symm.trans htag) (by simp)

theorem InRound.step (l : RoundSection F) (hs : InRound s) (hsettled : RoundSettled s l)
    (h : roundStep s l = some t) : InRound t := by
  cases l with
  | check id res packet => exact hs.check h
  | accumulate => exact hs.accumulate h
  | inputs => exact hs.inputs h
  | advance tick =>
    obtain ⟨upds, ball, scoredIndex, -, -, rfl⟩ := roundStep_advance h
    exact ⟨hs.input1, hs.input2, hs.pending1, hs.pending2, hs.holding, hs.moves⟩
  | score rands => exact hs.score hsettled h
  | announce =>
    obtain ⟨k, -, rfl⟩ := roundStep_announce h
    exact ⟨hs.input1, hs.input2, hs.pending1, hs.pending2, hs.holding, hs.moves⟩

theorem InRound.initial (room : Room) (rands : Rands) (g : Globals F) :
    InRound (RoundServer.initial room rands g) := by
  refine ⟨rfl, rfl, ?_, ?_, ?_, ?_⟩
  · intro e he
    cases he
  · intro e he
    cases he
  · intro tag htag
    cases htag
  · intro m hm
    cases hm

/-- Where every round ends settled, every tick moves the paddles by input of its own round
only, in any interleaving of the sections. -/
theorem round_isolation (room : Room) (rands : Rands) (g : Globals F)
    {ls : List (RoundSection F)}
    (hC : System.AllSteps roundStep RoundSettled (RoundServer.initial room rands g) ls)
    (h : System.run roundStep (RoundServer.initial room rands g) ls = some s) :
    ∀ m ∈ s.moves, m.OfRound :=
  (System.invariant_of_allSteps (fun _ l _ hs hl hstep => hs.step l hl hstep)
    (InRound.initial room rands g) hC h).moves

end

instance {F : Type} (s : RoundServer F) (l : RoundSection F) : Decidable (RoundSettled s l) :=
  match l with
  | .score _ => inferInstanceAs (Decidable (s.pending1 = [] ∧ s.pending2 = [] ∧ s.holding = none))
  | .check .. | .accumulate | .inputs | .advance _ | .announce => isTrue trivial

instance (m : Move) : Decidable m.OfRound :=
  inferInstanceAs (Decidable (_ ∧ _ ∧ (∀ e ∈ m.from1, e.tag = m.tag) ∧ ∀ e ∈ m.from2, e.tag = m.tag))

def oneGame : RoundServer ℚ := .initial ⟨![1, 2]⟩ ⟨0, 1, 1⟩ .zero

def input100 : RoundSection ℚ := .check 1 10 ⟨1, 0, 4, Packet.zero.data.setInputAccMs 100⟩

def longTick : RoundSection ℚ := .advance ⟨6000, 1, 0, ⟨0, 0, 0⟩⟩

def settledRound : List (RoundSection ℚ) :=
  [input100, .accumulate, .inputs, longTick, .score ⟨0, 0, 0⟩, .announce, .inputs]

theorem round_isolation_settledRound :
    ∃ s, System.run roundStep oneGame settledRound = some s ∧ s.round = 1 ∧ s.moves.length = 2 ∧
      ∀ m ∈ s.moves, m.OfRound := by
  have hC : System.AllSteps roundStep RoundSettled oneGame settledRound := by
    decide +kernel
  have hrun : (System.run roundStep oneGame settledRound).map (fun s => (s.round, s.moves.length)) =
      some (1, 2) := by
    decide +kernel
  obtain ⟨s, hs, hcounts⟩ := Option.map_eq_some_iff.mp hrun
  exact ⟨s, hs, congrArg Prod.fst hcounts, congrArg Prod.snd hcounts,
    round_isolation ⟨![1, 2]⟩ ⟨0, 1, 1⟩ .zero hC hs⟩

/-- The same input arrives while the tick that ends the round is on its way. -/
def lateInput : List (RoundSection ℚ) :=
  [.inputs, longTick, input100, .accumulate, .score ⟨0, 0, 0⟩, .announce, .inputs]

def lateMove : Move := ⟨⟨1, 1⟩, 100, 0, [⟨⟨0, 0⟩, 100⟩], []⟩

theorem round_isolation_lateInput :
    ∃ s, System.run roundStep oneGame lateInput = some s ∧ lateMove ∈ s.moves ∧
      ¬ lateMove.OfRound := by
  have hrun : (System.run roundStep oneGame lateInput).map RoundServer.moves =
      some [⟨⟨0, 0⟩, 0, 0, [], []⟩, lateMove] := by
    decide +kernel
  obtain ⟨s, hs, hmoves⟩ := Option.map_eq_some_iff.mp hrun
  refine ⟨s, hs, ?_, by decide⟩
  rw [hmoves]
  exact List.mem_cons_of_mem _ List.mem_cons_self

end CPong
