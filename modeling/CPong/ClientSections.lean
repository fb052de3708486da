import CPong.Client
import CPong.RoundSections

/-!
# The rounds of one client

The sections of the receiver, network and frame threads under their mutexes, one step
each, in any interleaving. Every amount in `input_acc_ms` is tagged with the value that
`*sync` had when it was accumulated.
-/

namespace CPong

set_option autoImplicit false

open Lib
open Lib.Tally (Entry record total total_record mem_record)

/-- Where `server_state_receive` is in the handling of a `PACKET_INIT`. -/
inductive InitReceipt where
  | idle
  | replaced (sync : I8)
  /-- `*sync` is set; `stale` is what the accumulator then held. -/
  | synced (stale : List (Entry RoundTag I32))
deriving DecidableEq, Repr

/-- A packet that `network_update` composed, the round it did so in, and where the input in
it came from. -/
structure Outgoing (F : Type) where
  packet : Packet F
  round : Nat
  entries : List (Entry RoundTag I32)
deriving DecidableEq

structure ClientThreads (F : Type) where
  args : ClientData F
  receipt : InitReceipt
  /-- the direction and the duration of the frame in progress -/
  frame : Option (Int × I32)
  round : Nat
  pending : List (Entry RoundTag I32)
  sent : List (Outgoing F)
deriving DecidableEq

inductive ClientSection (F : Type) where
  | receive (res : Int) (packet : Packet F)
  | setSync
  | zeroInput
  | paddleInputs (up down : Bool) (deltaTime : I32)
  /-- `update_local_state`, in one step although it holds no mutex -/
  | localState (fuel : Nat)
  | network

section
variable {F : Type}

def ClientThreads.tag (s : ClientThreads F) : RoundTag := ⟨s.args.sync, s.round⟩

variable [Field F] [LinearOrder F] [FloorRing F] [Libm F]

def clientStep (s : ClientThreads F) (l : ClientSection F) : Option (ClientThreads F) :=
  match l, s.receipt, s.frame with
  | .receive res packet, .idle, _ =>
    if res ≤ 0 then some s
    else if packet.type = CpongPacket.state.code then
      some { s with args := receiveState s.args packet.data.state }
    else if packet.type = CpongPacket.init.code then
      some { s with
        args := replaceLocalState s.args packet.data.state
        receipt := .replaced packet.sync }
    else some s
  | .setSync, .replaced sync, _ =>
    some { s with
      args := setSync s.args sync
      receipt := .synced s.pending
      round := s.round + 1 }
  | .zeroInput, .synced _, _ =>
    some { s with args := zeroInput s.args, receipt := .idle, pending := [] }
  | .paddleInputs up down deltaTime, _, none =>
    let amount : I32 := BitVec.ofInt 32 (inputDirection up down) * deltaTime
    some { s with
      args := (receivePaddleInputs s.args up down deltaTime).2
      frame := some ((receivePaddleInputs s.args up down deltaTime).1, deltaTime)
      pending := record s.pending ⟨s.tag, amount⟩ }
  | .localState fuel, _, some (paddleDirection, deltaTime) =>
    (updateLocalState fuel s.args.localState deltaTime.toInt paddleDirection).map
      fun localState => { s with args := { s.args with localState := localState }, frame := none }
  | .network, _, _ =>
    some { s with
      args := (networkUpdate s.args).2
      pending := []
      sent := s.sent ++ [⟨(networkUpdate s.args).1, s.round, s.pending⟩] }
  | _, _, _ => none

def ClientThreads.initial (args : ClientData F) : ClientThreads F :=
  { args := args, receipt := .idle, frame := none, round := 0, pending := [], sent := [] }

variable {s t : ClientThreads F}

-- makes the equations of `clientStep` here, once for all the lemmas below
attribute [local simp] clientStep

theorem clientStep_receive {res : Int} {packet : Packet F}
    (h : clientStep s (.receive res packet) = some t) :
    s.receipt = .idle ∧ (
      ¬ (0 < res ∧ (packet.type = CpongPacket.state.code ∨
        packet.type = CpongPacket.init.code)) ∧ t = s ∨
      packet.type = CpongPacket.state.code ∧
        t = { s with args := receiveState s.args packet.data.state } ∨
      packet.type = CpongPacket.init.code ∧ t = { s with
        args := replaceLocalState s.args packet.data.state
        receipt := .replaced packet.sync }) := by
  cases hr : s.receipt with
  | idle =>
    refine ⟨rfl, ?_⟩
    simp only [clientStep, hr] at h
    by_cases hres : res ≤ 0
    · rw [if_pos hres] at h
      cases h
      exact Or.inl ⟨fun hboth => absurd hboth.1 (not_lt.mpr hres), rfl⟩
    rw [if_neg hres] at h
    by_cases hstate : packet.type = CpongPacket.state.code
    · rw [if_pos hstate] at h
      cases h
      exact Or.inr (Or.inl ⟨hstate, rfl⟩)
    rw [if_neg hstate] at h
    by_cases hinit : packet.type = CpongPacket.init.code
    · rw [if_pos hinit] at h
      cases h
      exact Or.inr (Or.inr ⟨hinit, rfl⟩)
    · rw [if_neg hinit] at h
      cases h
      exact Or.inl ⟨fun hboth => hboth.2.elim hstate hinit, rfl⟩
  | _ =>
    simp only [clientStep, hr] at h
    cases h

theorem clientStep_setSync (h : clientStep s .setSync = some t) :
    ∃ sync, s.receipt = .replaced sync ∧
      t = { s with
        args := setSync s.args sync
        receipt := .synced s.pending
        round := s.round + 1 } := by
  cases hr : s.receipt with
  | replaced sync =>
    simp only [clientStep, hr] at h
    cases h
    exact ⟨sync, rfl, rfl⟩
  | _ =>
    simp only [clientStep, hr] at h
    cases h

theorem clientStep_zeroInput (h : clientStep s .zeroInput = some t) :
    ∃ stale, s.receipt = .synced stale ∧
      t = { s with args := zeroInput s.args, receipt := .idle, pending := [] } := by
  cases hr : s.receipt with
  | synced stale =>
    simp only [clientStep, hr] at h
    cases h
    exact ⟨stale, rfl, rfl⟩
  | _ =>
    simp only [clientStep, hr] at h
    cases h

theorem clientStep_paddleInputs {up down : Bool} {deltaTime : I32}
    (h : clientStep s (.paddleInputs up down deltaTime) = some t) :
    s.frame = none ∧ t = { s with
      args := (receivePaddleInputs s.args up down deltaTime).2
      frame := some (inputDirection up down, deltaTime)
      pending := record s.pending
        ⟨s.tag, BitVec.ofInt 32 (inputDirection up down) * deltaTime⟩ } := by
  cases hf : s.frame with
  | none =>
    simp only [clientStep, hf] at h
    cases h
    exact ⟨rfl, rfl⟩
  | some frame =>
    simp only [clientStep, hf] at h
    cases h

theorem clientStep_localState {fuel : Nat} (h : clientStep s (.localState fuel) = some t) :
    ∃ paddleDirection deltaTime localState, s.frame = some (paddleDirection, deltaTime) ∧
      updateLocalState fuel s.args.localState deltaTime.toInt paddleDirection = some localState ∧
      t = { s with args := { s.args with localState := localState }, frame := none } := by
  cases hf : s.frame with
  | none =>
    simp only [clientStep, hf] at h
    cases h
  | some frame =>
    simp only [clientStep, hf, Option.map_eq_some_iff] at h
    obtain ⟨localState, hlocal, rfl⟩ := h
    exact ⟨frame.1, frame.2, localState, rfl, hlocal, rfl⟩

theorem clientStep_network (h : clientStep s .network = some t) :
    t = { s with
      args := (networkUpdate s.args).2
      pending := []
      sent := s.sent ++ [⟨(networkUpdate s.args).1, s.round, s.pending⟩] } := by
  simp only [clientStep] at h
  cases h
  rfl

theorem serverStateReceive_sections (hidle : s.receipt = .idle) (res : Int) (packet : Packet F) :
    ∃ ls t, (ls = [] ∨ ls = [.setSync, .zeroInput]) ∧
      System.run clientStep s (.receive res packet :: ls) = some t ∧ t.receipt = .idle ∧
      t.frame = s.frame ∧ t.args = (serverStateReceive s.args res packet).2 := by
  by_cases hres : res ≤ 0
  · refine ⟨[], ?_⟩
    simp only [System.run, clientStep, hidle, serverStateReceive, if_pos hres, Option.bind_some]
    exact ⟨_, Or.inl trivial, rfl, hidle, rfl, rfl⟩
  by_cases hstate : packet.type = CpongPacket.state.code
  · refine ⟨[], ?_⟩
    simp only [System.run, clientStep, hidle, serverStateReceive, if_neg hres, if_pos hstate,
      Option.bind_some]
    exact ⟨_, Or.inl trivial, rfl, rfl, rfl, rfl⟩
  by_cases hinit : packet.type = CpongPacket.init.code
  · refine ⟨[.setSync, .zeroInput], ?_⟩
    simp only [System.run, clientStep, hidle, serverStateReceive, if_neg hres, if_neg hstate,
      if_pos hinit, Option.bind_some]
    exact ⟨_, Or.inr trivial, rfl, rfl, rfl, rfl⟩
  · refine ⟨[], ?_⟩
    simp only [System.run, clientStep, hidle, serverStateReceive, if_neg hres, if_neg hstate,
      if_neg hinit, Option.bind_some]
    exact ⟨_, Or.inl trivial, rfl, hidle, rfl, rfl⟩

theorem update_sections (hidle : s.frame = none) {fuel : Nat} {up down : Bool} {deltaTime : I32}
    {args : ClientData F} (h : update fuel s.args up down deltaTime = some args) :
    ∃ t, System.run clientStep s [.paddleInputs up down deltaTime, .localState fuel] = some t ∧
      t.receipt = s.receipt ∧ t.frame = none ∧ t.args = args := by
  obtain ⟨localState, hlocal, hres⟩ := Option.bind_eq_some_iff.mp h
  cases hres
  change updateLocalState fuel s.args.localState deltaTime.toInt (inputDirection up down) =
    some localState at hlocal
  simp only [System.run, clientStep, hidle, receivePaddleInputs, hlocal, Option.map_some,
    Option.bind_some]
  exact ⟨_, rfl, rfl, rfl, rfl⟩

/-- The packet carries input that was accumulated while `*sync` was the sync it is sent
under, in the same round, and nothing else. -/
def Outgoing.OfRound (o : Outgoing F) : Prop :=
  o.packet.data.inputAccMs = total o.entries ∧ ∀ e ∈ o.entries, e.tag = ⟨o.packet.sync, o.round⟩

/-- No packet is composed between the setting of `*sync` and the zeroing of the accumulator,
unless nothing was accumulated when `*sync` was set. -/
def SyncSettled (s : ClientThreads F) (l : ClientSection F) : Prop :=
  match l, s.receipt with
  | .network, .synced stale => stale = []
  | _, _ => True

/-- The accumulated input is of the current round, but for what a new round has not yet
zeroed. -/
def Pending (s : ClientThreads F) : Prop :=
  match s.receipt with
  | .synced stale => (∀ e ∈ s.pending, e ∈ stale ∨ e.tag = s.tag) ∧
      ∀ e ∈ stale, e ∈ s.pending ∧ e.tag.round < s.round
  | _ => ∀ e ∈ s.pending, e.tag = s.tag

structure Tagged (s : ClientThreads F) : Prop where
  acc : s.args.inputAccMs = total s.pending
  pending : Pending s
  sent : ∀ o ∈ s.sent, o.OfRound

omit [Field F] [LinearOrder F] [FloorRing F] [Libm F] in
theorem Pending.accumulate {amount : I32} {frame : Option (Int × I32)} (h : Pending s) :
    Pending { s with
      args := { s.args with inputAccMs := s.args.inputAccMs + amount }
      frame := frame
      pending := record s.pending ⟨s.tag, amount⟩ } := by
  have hnew : ∀ e ∈ record s.pending ⟨s.tag, amount⟩, e ∈ s.pending ∨ e.tag = s.tag := by
    intro e he
    rcases mem_record he with he | ⟨rfl, -⟩
    · exact Or.inl he
    · exact Or.inr rfl
  cases hr : s.receipt with
  | synced stale =>
    simp only [Pending, hr] at h ⊢
    refine ⟨?_, fun e he => ⟨Tally.mem_record_of_mem (h.2 e he).1, (h.2 e he).2⟩⟩
    intro e he
    rcases hnew e he with he | he
    · exact h.1 e he
    · exact Or.inr he
  | _ =>
    simp only [Pending, hr] at h ⊢
    intro e he
    rcases hnew e he with he | he
    · exact h e he
    · exact he

theorem Tagged.receive {res : Int} {packet : Packet F} (hs : Tagged s)
    (h : clientStep s (.receive res packet) = some t) : Tagged t := by
  obtain ⟨hidle, ⟨-, rfl⟩ | ⟨-, rfl⟩ | ⟨-, rfl⟩⟩ := clientStep_receive h
  · exact hs
  · exact ⟨hs.acc, hs.pending, hs.sent⟩
  · refine ⟨hs.acc, ?_, hs.sent⟩
    have hpending := hs.pending
    simp only [Pending, hidle] at hpending
    exact hpending

theorem Tagged.setSync (hs : Tagged s) (h : clientStep s .setSync = some t) : Tagged t := by
  obtain ⟨sync, hreplaced, rfl⟩ := clientStep_setSync h
  have hpending := hs.pending
  simp only [Pending, hreplaced] at hpending
  refine ⟨hs.acc, ⟨fun e he => Or.inl he, ?_⟩, hs.sent⟩
  intro e he
  refine ⟨he, ?_⟩
  rw [hpending e he]
  exact Nat.lt_succ_self s.round

theorem Tagged.zeroInput (hs : Tagged s) (h : clientStep s .zeroInput = some t) : Tagged t := by
  obtain ⟨stale, -, rfl⟩ := clientStep_zeroInput h
  refine ⟨rfl, ?_, hs.sent⟩
  intro e he
  cases he

theorem Tagged.network (hs : Tagged s) (hsettled : SyncSettled s .network)
    (h : clientStep s .network = some t) : Tagged t := by
  rw [clientStep_network h]
  have hpending := hs.pending
  cases hr : s.receipt with
  | synced stale =>
    simp only [Pending, SyncSettled, hr] at hpending hsettled
    subst hsettled
    refine ⟨rfl, ?_, ?_⟩
    · simp only [Pending]
      constructor
      · intro e he
        cases he
      · intro e he
        cases he
    · intro o ho
      rcases List.mem_append.mp ho with ho | ho
      · exact hs.sent o ho
      · rw [List.mem_singleton.mp ho]
        refine ⟨hs.acc, fun e he => ?_⟩
        exact (hpending.1 e he).resolve_left List.not_mem_nil
  | _ =>
    simp only [Pending, hr] at hpending
    refine ⟨rfl, ?_, ?_⟩
    · intro e he
      cases he
    · intro o ho
      rcases List.mem_append.mp ho with ho | ho
      · exact hs.sent o ho
      · rw [List.mem_singleton.mp ho]
        exact ⟨hs.acc, hpending⟩

theorem Tagged.step (l : ClientSection F) (hs : Tagged s) (hsettled : SyncSettled s l)
    (h : clientStep s l = some t) : Tagged t := by
  cases l with
  | receive res packet => exact hs.receive h
  | setSync => exact hs.setSync h
  | zeroInput => exact hs.zeroInput h
  | paddleInputs up down deltaTime =>
    obtain ⟨-, rfl⟩ := clientStep_paddleInputs h
    refine ⟨?_, hs.pending.accumulate, hs.sent⟩
    unfold receivePaddleInputs
    rw [total_record, ← hs.acc]
  | localState fuel =>
    obtain ⟨_, _, localState, -, -, rfl⟩ := clientStep_localState h
    exact ⟨hs.acc, hs.pending, hs.sent⟩
  | network => exact hs.network hsettled h

theorem clientStep_sent (l : ClientSection F) (h : clientStep s l = some t) : s.sent ⊆ t.sent := by
  cases l with
  | receive res packet =>
    obtain ⟨-, ⟨-, rfl⟩ | ⟨-, rfl⟩ | ⟨-, rfl⟩⟩ := clientStep_receive h
    · exact List.Subset.refl _
    · exact List.Subset.refl _
    · exact List.Subset.refl _
  | setSync =>
    obtain ⟨sync, -, rfl⟩ := clientStep_setSync h
    exact List.Subset.refl _
  | zeroInput =>
    obtain ⟨stale, -, rfl⟩ := clientStep_zeroInput h
    exact List.Subset.refl _
  | paddleInputs up down deltaTime =>
    obtain ⟨-, rfl⟩ := clientStep_paddleInputs h
    exact List.Subset.refl _
  | localState fuel =>
    obtain ⟨_, _, localState, -, -, rfl⟩ := clientStep_localState h
    exact List.Subset.refl _
  | network =>
    rw [clientStep_network h]
    exact List.subset_append_left _ _

/-- A packet composed between the setting of `*sync` and the zeroing carries the stale input
under the new sync. -/
theorem Tagged.settled_of_ofRound (l : ClientSection F) (hs : Tagged s)
    (h : clientStep s l = some t) (ht : ∀ o ∈ t.sent, o.OfRound) : SyncSettled s l := by
  cases l with
  | network =>
    rw [clientStep_network h] at ht
    cases hr : s.receipt with
    | synced stale =>
      have hpending := hs.pending
      simp only [Pending, SyncSettled, hr] at hpending ⊢
      apply List.eq_nil_iff_forall_not_mem.mpr
      intro e he
      obtain ⟨hin, hround⟩ := hpending.2 e he
      have htag := (ht _ (List.mem_append_right _ List.mem_cons_self)).2 e hin
      rw [htag] at hround
      exact lt_irrefl _ hround
    | _ =>
      simp only [SyncSettled, hr]
  | _ => exact trivial

/-- The packets of a run carry input of their own round exactly when none of them is composed
while input of an older round waits to be zeroed. -/
theorem sync_tagging_iff {packet : Packet F} {serverState : PongState F} {args : ClientData F}
    (hstart : clientMain packet serverState = some args) {ls : List (ClientSection F)}
    (h : System.run clientStep (.initial args) ls = some t) :
    (∀ o ∈ t.sent, o.OfRound) ↔
      System.AllSteps clientStep SyncSettled (.initial args) ls := by
  have hinit : Tagged (ClientThreads.initial args) := by
    obtain ⟨-, hargs⟩ := Option.ite_none_left_eq_some.mp hstart
    cases hargs
    refine ⟨rfl, ?_, ?_⟩
    · intro e he
      cases he
    · intro o ho
      cases ho
  constructor
  · intro ht
    exact System.allSteps_of_run
      (fun _ l _ hstep ht o ho => ht o (clientStep_sent l hstep ho))
      (fun _ l _ hs hstep ht => hs.settled_of_ofRound l hstep ht)
      (fun _ l _ hs hl hstep => hs.step l hl hstep) hinit h ht
  · intro hC
    exact (System.invariant_of_allSteps (fun _ l _ hs hl hstep => hs.step l hl hstep)
      hinit hC h).sent

end

instance {F : Type} [Field F] (o : Outgoing F) : Decidable o.OfRound :=
  inferInstanceAs (Decidable (_ ∧ ∀ e ∈ o.entries, e.tag = _))

def initOfSync (sync : I8) : Packet ℚ := { Packet.zero with type := 2, sync := sync }

def oneClient : ClientData ℚ := ⟨(initOfSync 0).data.state, Packet.zero.data.state, 0, 0⟩

/-- The handling of a second `PACKET_INIT` during a frame, without a packet in between. -/
def quietInit : List (ClientSection ℚ) :=
  [.paddleInputs false true 16, .receive 106 (initOfSync 1), .setSync, .zeroInput, .network]

theorem sync_tagging_quietInit :
    ∃ t, System.run clientStep (.initial oneClient) quietInit = some t ∧ t.sent.length = 1 ∧
      ((∀ o ∈ t.sent, o.OfRound) ↔
        System.AllSteps clientStep SyncSettled (.initial oneClient) quietInit) := by
  have hrun : (System.run clientStep (.initial oneClient) quietInit).map
      (fun t => t.sent.length) = some 1 := by
    decide +kernel
  obtain ⟨t, ht, hlen⟩ := Option.map_eq_some_iff.mp hrun
  have hstart : clientMain (initOfSync 0) Packet.zero.data.state = some oneClient := by
    decide +kernel
  exact ⟨t, ht, hlen, sync_tagging_iff hstart ht⟩

def earlyPacket : List (ClientSection ℚ) :=
  [.paddleInputs false true 16, .receive 106 (initOfSync 1), .setSync, .network, .zeroInput]

def staleOutgoing : Outgoing ℚ :=
  ⟨⟨1, 1, 0, (Packet.zero : Packet ℚ).data.setInputAccMs 16⟩, 1, [⟨⟨0, 0⟩, 16⟩]⟩

theorem sync_tagging_earlyPacket :
    ∃ t, System.run clientStep (.initial oneClient) earlyPacket = some t ∧
      staleOutgoing ∈ t.sent ∧ ¬ staleOutgoing.OfRound := by
  have hrun : (System.run clientStep (.initial oneClient) earlyPacket).map ClientThreads.sent =
      some [staleOutgoing] := by
    decide +kernel
  obtain ⟨t, ht, hsent⟩ := Option.map_eq_some_iff.mp hrun
  refine ⟨t, ht, ?_, by decide +kernel⟩
  rw [hsent]
  exact List.mem_cons_self

end CPong
