import CPong.BallTermination
import CPong.ClientSections
import CPong.Lib.LockProgress
import CPong.Lib.SerialOrder

/-!
# The locks of the game client

The receiver, network and frame threads of the client, one lock, one access or one piece of a
thread's own work at a time. `update` works on `local_state` after it has given `state_mtx`
back, so nothing is said here of what that mutex is for.
-/

namespace CPong

set_option autoImplicit false

open Lib
open Lib.Locks

inductive ClientThread where
  | receiver
  | network
  | frame
deriving DecidableEq, Repr

instance : Fintype ClientThread :=
  ⟨{ClientThread.receiver, ClientThread.network, ClientThread.frame}, fun t => by cases t <;> simp⟩

inductive ClientMutex where
  | state
  | sync
  | input
deriving DecidableEq, Repr

/-- `*sync` and `input_acc_ms`. -/
abbrev ClientMutexData : ClientMutex → Type
  | .state => Unit
  | .sync => I8
  | .input => I32

/-- `network_update` locks `input_mtx` first. -/
def ClientMutex.rank : ClientMutex → Nat
  | .sync => 1
  | _ => 0

inductive ReceiptPlace where
  | idle
  | replaced (sync : I8)
  | synced
deriving DecidableEq, Repr

/-- `discarded` is the input that the receiver has zeroed. -/
structure ReceiptVars where
  place : ReceiptPlace
  discarded : List I32

structure NetworkVars (F : Type) where
  packet : Packet F
  sent : List (Packet F)

/-- `gathered` is the input that the frames have added. -/
structure FrameVars where
  frame : Option (Int × I32)
  inputAccMs : I32
  gathered : List I32

abbrev ClientVars (F : Type) : ClientThread → Type
  | .receiver => ReceiptVars
  | .network => NetworkVars F
  | .frame => FrameVars

inductive ReceiptCall (F : Type) where
  | receive (res : Int) (packet : Packet F)
  | setSync
  | zeroInput

inductive FrameCall where
  | paddleInputs (up down : Bool) (deltaTime : I32)
  | localState

abbrev ClientCall (F : Type) : ClientThread → Type
  | .receiver => ReceiptCall F
  | .network => Unit
  | .frame => FrameCall

abbrev ClientOp (V : Type) := Op ClientMutex ClientMutexData V

section
variable {F : Type}

def receiptCode : ReceiptCall F → ReceiptVars → Option (List (ClientOp ReceiptVars))
  | .receive res packet, v =>
    match v.place with
    | .idle =>
      if res ≤ 0 then some []
      else if packet.type = CpongPacket.state.code then some [.lock .state, .unlock .state]
      else if packet.type = CpongPacket.init.code then
        some [.lock .state, .unlock .state, .own fun v => { v with place := .replaced packet.sync }]
      else some []
    | _ => none
  | .setSync, v =>
    match v.place with
    | .replaced sync =>
      some [.lock .sync, .access .sync fun (c : ReceiptVars × I8) => (c.1, sync), .unlock .sync,
        .own fun v => { v with place := .synced }]
    | _ => none
  | .zeroInput, v =>
    match v.place with
    | .synced =>
      some [.lock .input,
        .access .input fun (c : ReceiptVars × I32) =>
          ({ c.1 with discarded := c.1.discarded ++ [c.2] }, 0),
        .unlock .input, .own fun v => { v with place := .idle }]
    | _ => none

/-- The section of `network_update`, and the sending of its packet. -/
def networkOps [Field F] : List (ClientOp (NetworkVars F)) :=
  [.lock .input, .lock .sync,
    .access .sync fun (c : NetworkVars F × I8) =>
      ({ c.1 with packet := ⟨CpongPacket.input.code, c.2, 0, (Packet.zero : Packet F).data⟩ }, c.2),
    .access .input fun (c : NetworkVars F × I32) =>
      ({ c.1 with packet := { c.1.packet with data := c.1.packet.data.setInputAccMs c.2 } }, c.2),
    .unlock .sync,
    .access .input fun (c : NetworkVars F × I32) => (c.1, 0),
    .unlock .input,
    .own fun v => { v with sent := v.sent ++ [v.packet] }]

/-- `+=` reads and then writes. -/
def paddleInputsOps (up down : Bool) (deltaTime : I32) : List (ClientOp FrameVars) :=
  [.lock .input,
    .access .input fun (c : FrameVars × I32) => ({ c.1 with inputAccMs := c.2 }, c.2),
    .access .input fun (c : FrameVars × I32) =>
      (c.1, c.1.inputAccMs + BitVec.ofInt 32 (inputDirection up down) * deltaTime),
    .unlock .input,
    .own fun v => { v with
      frame := some (inputDirection up down, deltaTime)
      gathered := v.gathered ++ [BitVec.ofInt 32 (inputDirection up down) * deltaTime] }]

def frameCode : FrameCall → FrameVars → Option (List (ClientOp FrameVars))
  | .paddleInputs up down deltaTime, v =>
    match v.frame with
    | none => some (paddleInputsOps up down deltaTime)
    | some _ => none
  | .localState, v =>
    match v.frame with
    | none => none
    | some _ => some [.lock .state, .unlock .state, .own fun v => { v with frame := none }]

def clientCode [Field F] : Code ClientMutexData (ClientVars F) (ClientCall F)
  | .receiver => receiptCode
  | .network => fun _ _ => some networkOps
  | .frame => frameCode

section Begins

inductive ReceiptBegins (v : ReceiptVars) : ReceiptCall F → List (ClientOp ReceiptVars) → Prop
    where
  | ignore (res : Int) (packet : Packet F) (hplace : v.place = .idle)
      (hother : res ≤ 0 ∨
        packet.type ≠ CpongPacket.state.code ∧ packet.type ≠ CpongPacket.init.code) :
      ReceiptBegins v (.receive res packet) []
  | state (res : Int) (packet : Packet F) (hplace : v.place = .idle) (hres : ¬ res ≤ 0)
      (htype : packet.type = CpongPacket.state.code) :
      ReceiptBegins v (.receive res packet) [.lock .state, .unlock .state]
  | init (res : Int) (packet : Packet F) (hplace : v.place = .idle) (hres : ¬ res ≤ 0)
      (htype : packet.type = CpongPacket.init.code) :
      ReceiptBegins v (.receive res packet) [.lock .state, .unlock .state,
        .own fun v => { v with place := .replaced packet.sync }]
  | setSync (sync : I8) (hplace : v.place = .replaced sync) :
      ReceiptBegins v .setSync [.lock .sync,
        .access .sync fun (c : ReceiptVars × I8) => (c.1, sync), .unlock .sync,
        .own fun v => { v with place := .synced }]
  | zeroInput (hplace : v.place = .synced) :
      ReceiptBegins v .zeroInput [.lock .input,
        .access .input fun (c : ReceiptVars × I32) =>
          ({ c.1 with discarded := c.1.discarded ++ [c.2] }, 0),
        .unlock .input, .own fun v => { v with place := .idle }]

theorem receiptCode_begins {call : ReceiptCall F} {v : ReceiptVars}
    {ops : List (ClientOp ReceiptVars)} (h : receiptCode call v = some ops) :
    ReceiptBegins v call ops := by
  cases call with
  | receive res packet =>
    cases hplace : v.place with
    | idle =>
      simp only [receiptCode, hplace] at h
      by_cases hres : res ≤ 0
      · rw [if_pos hres] at h
        cases h
        exact .ignore res packet hplace (Or.inl hres)
      rw [if_neg hres] at h
      by_cases hstate : packet.type = CpongPacket.state.code
      · rw [if_pos hstate] at h
        cases h
        exact .state res packet hplace hres hstate
      rw [if_neg hstate] at h
      by_cases hinit : packet.type = CpongPacket.init.code
      · rw [if_pos hinit] at h
        cases h
        exact .init res packet hplace hres hinit
      · rw [if_neg hinit] at h
        cases h
        exact .ignore res packet hplace (Or.inr ⟨hstate, hinit⟩)
    | _ =>
      simp only [receiptCode, hplace] at h
      cases h
  | setSync =>
    cases hplace : v.place with
    | replaced sync =>
      simp only [receiptCode, hplace, Option.some.injEq] at h
      subst h
      exact .setSync sync hplace
    | _ =>
      simp only [receiptCode, hplace] at h
      cases h
  | zeroInput =>
    cases hplace : v.place with
    | synced =>
      simp only [receiptCode, hplace, Option.some.injEq] at h
      subst h
      exact .zeroInput hplace
    | _ =>
      simp only [receiptCode, hplace] at h
      cases h

inductive FrameBegins (v : FrameVars) : FrameCall → List (ClientOp FrameVars) → Prop where
  | paddleInputs (up down : Bool) (deltaTime : I32) (hframe : v.frame = none) :
      FrameBegins v (.paddleInputs up down deltaTime) (paddleInputsOps up down deltaTime)
  | localState (frame : Int × I32) (hframe : v.frame = some frame) :
      FrameBegins v .localState
        [.lock .state, .unlock .state, .own fun v => { v with frame := none }]

theorem frameCode_begins {call : FrameCall} {v : FrameVars} {ops : List (ClientOp FrameVars)}
    (h : frameCode call v = some ops) : FrameBegins v call ops := by
  cases call with
  | paddleInputs up down deltaTime =>
    cases hframe : v.frame with
    | none =>
      simp only [frameCode, hframe, Option.some.injEq] at h
      subst h
      exact .paddleInputs up down deltaTime hframe
    | some frame =>
      simp only [frameCode, hframe] at h
      cases h
  | localState =>
    cases hframe : v.frame with
    | none =>
      simp only [frameCode, hframe] at h
      cases h
    | some frame =>
      simp only [frameCode, hframe, Option.some.injEq] at h
      subst h
      exact .localState frame hframe

theorem clientCode_disciplined [Field F] (t : ClientThread) (call : ClientCall F t)
    (v : ClientVars F t) (ops : List (ClientOp (ClientVars F t)))
    (h : clientCode t call v = some ops) : Disciplined ClientMutex.rank ∅ ops := by
  cases t with
  | receiver => cases receiptCode_begins h <;> simp [Disciplined, Releasing]
  | network =>
    cases h
    simp [networkOps, Disciplined, Releasing, ClientMutex.rank]
  | frame => cases frameCode_begins h <;> simp [paddleInputsOps, Disciplined, Releasing]

end Begins

end

def InitReceipt.place : InitReceipt → ReceiptPlace
  | .idle => .idle
  | .replaced sync => .replaced sync
  | .synced _ => .synced

section
variable {F : Type}

/-- The threads between their calls, and the client between its sections. -/
structure ClientView (receiver : ReceiptVars) (network : NetworkVars F) (frame : FrameVars)
    (store : Store ClientMutexData) (s : ClientThreads F) : Prop where
  sync : s.args.sync = store .sync
  input : s.args.inputAccMs = store .input
  receipt : s.receipt.place = receiver.place
  frame : s.frame = frame.frame
  sent : s.sent.map Outgoing.packet = network.sent

abbrev clientView (a : Serial ClientMutexData (ClientVars F)) : ClientThreads F → Prop :=
  ClientView (a.vars .receiver) (a.vars .network) (a.vars .frame) a.store

/-- The section is what the call does, with as many trips of `ball_advance` as it takes. -/
def IsSection : (Σ t, ClientCall F t) → ClientSection F → Prop
  | ⟨.receiver, .receive res packet⟩, l => l = .receive res packet
  | ⟨.receiver, .setSync⟩, l => l = .setSync
  | ⟨.receiver, .zeroInput⟩, l => l = .zeroInput
  | ⟨.network, _⟩, l => l = .network
  | ⟨.frame, .paddleInputs up down deltaTime⟩, l => l = .paddleInputs up down deltaTime
  | ⟨.frame, .localState⟩, l => ∃ fuel, l = .localState fuel

end

section
variable {receiver : ReceiptVars} {network : NetworkVars ℝ} {frame : FrameVars}
  {store : Store ClientMutexData} {s : ClientThreads ℝ}

theorem ClientView.stepReceiver {call : ReceiptCall ℝ} {ops : List (ClientOp ReceiptVars)}
    (hv : ClientView receiver network frame store s) (h : ReceiptBegins receiver call ops) :
    ∃ l s', IsSection ⟨.receiver, call⟩ l ∧ clientStep s l = some s' ∧
      ClientView (execute ops (receiver, store)).1 network frame
        (execute ops (receiver, store)).2 s' := by
  have hplace := hv.receipt
  cases h with
  | ignore res packet hidle hother =>
    rw [hidle] at hplace
    cases hr : s.receipt with
    | idle =>
      refine ⟨_, s, rfl, ?_, hv⟩
      rcases hother with hres | ⟨hstate, hinit⟩
      · simp only [clientStep, hr, if_pos hres]
      · simp only [clientStep, hr, if_neg hstate, if_neg hinit, ite_self]
    | _ =>
      rw [hr] at hplace
      cases hplace
  | state res packet hidle hres htype =>
    rw [hidle] at hplace
    cases hr : s.receipt with
    | idle =>
      refine ⟨_, _, rfl, by simp only [clientStep, hr, if_neg hres, if_pos htype]; rfl, ?_⟩
      exact ⟨hv.sync, hv.input, hidle.symm, hv.frame, hv.sent⟩
    | _ =>
      rw [hr] at hplace
      cases hplace
  | init res packet hidle hres htype =>
    rw [hidle] at hplace
    have hstate : packet.type ≠ CpongPacket.state.code := by
      rw [htype]
      decide
    cases hr : s.receipt with
    | idle =>
      refine ⟨_, _, rfl,
        by simp only [clientStep, hr, if_neg hres, if_neg hstate, if_pos htype]; rfl, ?_⟩
      exact ⟨hv.sync, hv.input, rfl, hv.frame, hv.sent⟩
    | _ =>
      rw [hr] at hplace
      cases hplace
  | setSync sync hreplaced =>
    rw [hreplaced] at hplace
    cases hr : s.receipt with
    | replaced sync' =>
      rw [hr] at hplace
      cases hplace
      refine ⟨_, _, rfl, by simp only [clientStep, hr]; rfl, ?_⟩
      refine ⟨?_, ?_, rfl, hv.frame, hv.sent⟩
      · simp [execute, CPong.setSync]
      · simpa [execute, CPong.setSync] using hv.input
    | _ =>
      rw [hr] at hplace
      cases hplace
  | zeroInput hsynced =>
    rw [hsynced] at hplace
    cases hr : s.receipt with
    | synced stale =>
      refine ⟨_, _, rfl, by simp only [clientStep, hr]; rfl, ?_⟩
      refine ⟨?_, ?_, rfl, hv.frame, hv.sent⟩
      · simpa [execute, CPong.zeroInput] using hv.sync
      · simp [execute, CPong.zeroInput]
    | _ =>
      rw [hr] at hplace
      cases hplace

theorem ClientView.stepNetwork (hv : ClientView receiver network frame store s) :
    ∃ s', clientStep s .network = some s' ∧
      ClientView receiver (execute networkOps (network, store)).1 frame
        (execute networkOps (network, store)).2 s' := by
  refine ⟨_, by simp only [clientStep]; rfl, ?_⟩
  refine ⟨?_, ?_, hv.receipt, hv.frame, ?_⟩
  · simpa [networkOps, execute, networkUpdate] using hv.sync
  · simp [networkOps, execute, networkUpdate]
  · simp [networkOps, execute, networkUpdate, hv.sent, hv.sync, hv.input]

theorem ClientView.stepFrame {call : FrameCall} {ops : List (ClientOp FrameVars)}
    (hv : ClientView receiver network frame store s) (h : FrameBegins frame call ops) :
    ∃ l s', IsSection ⟨.frame, call⟩ l ∧ clientStep s l = some s' ∧
      ClientView receiver network (execute ops (frame, store)).1 (execute ops (frame, store)).2
        s' := by
  have hframe := hv.frame
  cases h with
  | paddleInputs up down deltaTime hnone =>
    rw [hnone] at hframe
    refine ⟨_, _, rfl, by simp only [clientStep, hframe]; rfl, ?_⟩
    refine ⟨?_, ?_, hv.receipt, rfl, hv.sent⟩
    · simpa [paddleInputsOps, execute, receivePaddleInputs] using hv.sync
    · simp [paddleInputsOps, execute, receivePaddleInputs, hv.input]
  | localState f hsome =>
    rw [hsome] at hframe
    obtain ⟨direction, deltaTime⟩ := f
    obtain ⟨fuel, st, hst⟩ :=
      updateLocalState_returns s.args.localState deltaTime.toInt direction
    refine ⟨.localState fuel, _, ⟨fuel, rfl⟩,
      by simp only [clientStep, hframe, hst, Option.map_some]; rfl, ?_⟩
    exact ⟨hv.sync, hv.input, hv.receipt, rfl, hv.sent⟩

theorem clientView_step {a a' : Serial ClientMutexData (ClientVars ℝ)}
    {call : Σ t, ClientCall ℝ t} (hv : clientView a s)
    (h : serialStep clientCode a call = some a') :
    ∃ l s', IsSection call l ∧ clientStep s l = some s' ∧ clientView a' s' := by
  obtain ⟨t, call⟩ := call
  obtain ⟨ops, hops, hself, hother, hstore⟩ := serialStep_eq_some h
  cases t with
  | receiver =>
    obtain ⟨l, s', hl, hstep, hv'⟩ := ClientView.stepReceiver hv (receiptCode_begins hops)
    refine ⟨l, s', hl, hstep, ?_⟩
    rw [clientView, hself, hother .network (by decide), hother .frame (by decide), hstore]
    exact hv'
  | network =>
    cases hops
    obtain ⟨s', hstep, hv'⟩ := ClientView.stepNetwork hv
    refine ⟨.network, s', rfl, hstep, ?_⟩
    rw [clientView, hself, hother .receiver (by decide), hother .frame (by decide), hstore]
    exact hv'
  | frame =>
    obtain ⟨l, s', hl, hstep, hv'⟩ := ClientView.stepFrame hv (frameCode_begins hops)
    refine ⟨l, s', hl, hstep, ?_⟩
    rw [clientView, hself, hother .receiver (by decide), hother .network (by decide), hstore]
    exact hv'

end

section
variable {F : Type} [Field F]

/-- The threads as `client_main` starts them. -/
def clientVars : ∀ t, ClientVars F t
  | .receiver => ⟨.idle, []⟩
  | .network => ⟨.zero, []⟩
  | .frame => ⟨none, 0, []⟩

omit [Field F] in
def clientStore (args : ClientData F) : Store ClientMutexData
  | .state => ()
  | .sync => args.sync
  | .input => args.inputAccMs

def clientStart (args : ClientData F) : Machine ClientMutexData (ClientVars F) (ClientCall F) :=
  Locks.start clientVars (clientStore args)

variable {args : ClientData F} {s : Machine ClientMutexData (ClientVars F) (ClientCall F)}
  {ls : List (Action (ClientCall F))}

theorem client_serializes (h : System.run (step clientCode) (clientStart args) ls = some s) :
    Sound ClientMutex.rank s ∧ ∃ a, Serializes clientCode ⟨clientVars, clientStore args⟩ s a :=
  serializes_of_run clientCode_disciplined h

/-- `network_update` holds two mutexes at a time, and still no thread waits for ever. -/
theorem client_never_stuck (h : System.run (step clientCode) (clientStart args) ls = some s) :
    (¬ Idle s → ∃ t s', step clientCode s (.next t) = some s') ∧
      (∃ (ts : List ClientThread) (s' : Machine ClientMutexData (ClientVars F) (ClientCall F)),
        System.run (step clientCode) s (ts.map .next) = some s' ∧ Idle s') ∧
      ∀ (ts : List ClientThread) s', System.run (step clientCode) s (ts.map .next) = some s' →
        ts.length + work s' = work s := by
  obtain ⟨hs, -⟩ := client_serializes h
  have htop : ∀ m, ClientMutex.rank m ≤ 1 := fun m => by cases m <;> decide
  refine ⟨exists_next _ htop hs, ?_, fun _ _ hrun => work_run hrun⟩
  exact exists_idle clientCode_disciplined htop hs

end

/-- Operation by operation, in any interleaving, the three threads do what the sections of the
client do in the order of the last locks, and who accesses what a mutex guards holds it. -/
theorem client_sections {args : ClientData ℝ}
    {s : Machine ClientMutexData (ClientVars ℝ) (ClientCall ℝ)} {ls : List (Action (ClientCall ℝ))}
    (h : System.run (step clientCode) (clientStart args) ls = some s) :
    (∃ sections r, List.Forall₂ IsSection s.order sections ∧
      System.run clientStep (ClientThreads.initial args) sections = some r ∧
      (Idle s → ClientView (s.threads .receiver).vars (s.threads .network).vars
        (s.threads .frame).vars s.store r)) ∧
    (∀ t, s.order.filter (fun call => call.1 = t) ++ waiting s t =
      (calls ls).filter fun call => call.1 = t) ∧
    ∀ t m f ops, (s.threads t).rest = .access m f :: ops → s.owner m = some t := by
  obtain ⟨hs, a, ha⟩ := client_serializes h
  refine ⟨?_, ?_, ?_⟩
  · have h0 : clientView ⟨clientVars, clientStore args⟩ (ClientThreads.initial args) :=
      ⟨rfl, rfl, rfl, rfl, rfl⟩
    obtain ⟨sections, r, hsections, hr, hview⟩ := System.run_forall₂ (Q := IsSection)
      (R := clientView) (fun a s call a' hv hstep => clientView_step hv hstep) h0 ha.run
    refine ⟨sections, r, hsections, hr, fun hidle => ?_⟩
    obtain ⟨hstore, hvars⟩ := ha.idle hs hidle
    rw [clientView, hvars, hvars, hvars, hstore] at hview
    exact hview
  · intro t
    exact callsOf_run h t
  · intro t m f ops hrest
    have ht := hs t
    rw [hrest] at ht
    exact ht.1

section
variable {F : Type} [Field F]

/-- A frame has read the accumulator when `network_update` comes for it, and after both the
receiver goes through a `PACKET_INIT`. -/
def tangledFrame : List (Action (ClientCall F)) :=
  [.call .frame (.paddleInputs false true 16), .call .network (), .next .frame, .next .frame,
    .next .frame, .next .frame, .next .network, .next .frame] ++
  List.replicate 7 (.next .network) ++
  .call .receiver (.receive 10 ⟨CpongPacket.init.code, 1, 0, Packet.zero.data⟩) ::
    List.replicate 3 (.next .receiver) ++
  .call .receiver .setSync :: List.replicate 4 (.next .receiver) ++
  .call .receiver .zeroInput :: List.replicate 4 (.next .receiver)

def newClient : ClientData F := ⟨Packet.zero.data.state, Packet.zero.data.state, 0, 0⟩

theorem tangledFrame_run :
    ∃ s, System.run (step clientCode) (clientStart (newClient : ClientData F)) tangledFrame =
      some s ∧ Idle s ∧ (s.threads .frame).vars.gathered = [16] := by
  have hrun : (System.run (step clientCode) (clientStart (newClient : ClientData F))
      tangledFrame).map (fun s => ((s.threads .receiver).rest.isEmpty,
        (s.threads .network).rest.isEmpty, (s.threads .frame).rest.isEmpty,
        (s.threads .frame).vars.gathered)) = some (true, true, true, [16]) := rfl
  obtain ⟨s, hs, hends⟩ := Option.map_eq_some_iff.mp hrun
  have hreceiver := congrArg Prod.fst hends
  have hnetwork := congrArg (fun ends => ends.2.1) hends
  have hframe := congrArg (fun ends => ends.2.2.1) hends
  refine ⟨s, hs, fun t => ?_, congrArg (fun ends => ends.2.2.2) hends⟩
  cases t with
  | receiver => exact List.isEmpty_iff.mp hreceiver
  | network => exact List.isEmpty_iff.mp hnetwork
  | frame => exact List.isEmpty_iff.mp hframe

end

theorem client_sections_tangled :
    ∃ s, System.run (step clientCode) (clientStart (newClient : ClientData ℝ)) tangledFrame =
        some s ∧ Idle s ∧
      ((∃ sections r, List.Forall₂ IsSection s.order sections ∧
        System.run clientStep (ClientThreads.initial newClient) sections = some r ∧
        (Idle s → ClientView (s.threads .receiver).vars (s.threads .network).vars
          (s.threads .frame).vars s.store r)) ∧
      (∀ t, s.order.filter (fun call => call.1 = t) ++ waiting s t =
        (calls tangledFrame).filter fun call => call.1 = t) ∧
      ∀ t m f ops, (s.threads t).rest = .access m f :: ops → s.owner m = some t) := by
  obtain ⟨s, hs, hidle, -⟩ := tangledFrame_run (F := ℝ)
  exact ⟨s, hs, hidle, client_sections hs⟩

/-- In the middle of it `network_update` waits for the mutex that the frame holds. -/
theorem client_never_stuck_tangled :
    ∃ s, System.run (step clientCode) (clientStart (newClient : ClientData ℚ))
        (tangledFrame.take 4) = some s ∧
      step clientCode s (.next .network) = none ∧
      (¬ Idle s → ∃ t s', step clientCode s (.next t) = some s') ∧
      (∃ (ts : List ClientThread) (s' : Machine ClientMutexData (ClientVars ℚ) (ClientCall ℚ)),
        System.run (step clientCode) s (ts.map .next) = some s' ∧ Idle s') ∧
      ∀ (ts : List ClientThread) s', System.run (step clientCode) s (ts.map .next) = some s' →
        ts.length + work s' = work s := by
  have hrun : (System.run (step clientCode) (clientStart (newClient : ClientData ℚ))
      (tangledFrame.take 4)).map (fun s => (step clientCode s (.next .network)).isNone) =
      some true := rfl
  obtain ⟨s, hs, hwaits⟩ := Option.map_eq_some_iff.mp hrun
  exact ⟨s, hs, Option.isNone_iff_eq_none.mp hwaits, client_never_stuck hs⟩

section
variable {F : Type} [Field F] {args : ClientData F}

/-- All that the frames have gathered has been sent or discarded or is in the accumulator. -/
def InputSent (args : ClientData F) (a : Serial ClientMutexData (ClientVars F)) : Prop :=
  args.inputAccMs + (a.vars .frame).gathered.sum =
    ((a.vars .network).sent.map fun p => p.data.inputAccMs).sum +
      (a.vars .receiver).discarded.sum + a.store .input

theorem InputSent.step {a a' : Serial ClientMutexData (ClientVars F)} {call : Σ t, ClientCall F t}
    (ha : InputSent args a) (h : serialStep clientCode a call = some a') : InputSent args a' := by
  obtain ⟨t, call⟩ := call
  obtain ⟨ops, hops, hself, hother, hstore⟩ := serialStep_eq_some h
  unfold InputSent at ha ⊢
  cases t with
  | receiver =>
    rw [hself, hother .network (by decide), hother .frame (by decide), hstore]
    cases receiptCode_begins hops with
    | ignore res packet hidle hother => exact ha
    | state res packet hidle hres htype => exact ha
    | init res packet hidle hres htype => exact ha
    | setSync sync hreplaced => simpa [execute] using ha
    | zeroInput hsynced => simpa [execute, add_assoc] using ha
  | network =>
    cases hops
    rw [hself, hother .receiver (by decide), hother .frame (by decide), hstore, ha]
    simp only [networkOps, execute, Function.update_self, List.map_append, List.map_cons,
      List.map_nil, List.sum_append, List.sum_singleton, PacketData.inputAccMs_setInputAccMs]
    simp [add_right_comm]
  | frame =>
    rw [hself, hother .receiver (by decide), hother .network (by decide), hstore]
    cases frameCode_begins hops with
    | paddleInputs up down deltaTime hnone =>
      simp [paddleInputsOps, execute, ← add_assoc, ha]
    | localState f hsome => exact ha

/-- No interleaving of the reads and writes loses input or sends it twice: whenever no thread is
inside a call, what the frames have gathered is in the packets sent, but for what the receiver
has zeroed and what is in the accumulator. -/
theorem client_input_conserved {s : Machine ClientMutexData (ClientVars F) (ClientCall F)}
    {ls : List (Action (ClientCall F))}
    (h : System.run (step clientCode) (clientStart args) ls = some s) (hidle : Idle s) :
    args.inputAccMs + (s.threads .frame).vars.gathered.sum =
      ((s.threads .network).vars.sent.map fun p => p.data.inputAccMs).sum +
        (s.threads .receiver).vars.discarded.sum + s.store .input := by
  obtain ⟨hs, a, ha⟩ := client_serializes h
  have h0 : InputSent args ⟨clientVars, clientStore args⟩ := by
    simp [InputSent, clientVars, clientStore]
  have hend := System.invariant (I := InputSent args) (fun a call a' hI hstep => hI.step hstep) h0
    ha.run
  obtain ⟨hstore, hvars⟩ := ha.idle hs hidle
  rw [InputSent, hvars, hvars, hvars, hstore] at hend
  exact hend

end

theorem client_input_conserved_tangled :
    ∃ s, System.run (step clientCode) (clientStart (newClient : ClientData ℚ)) tangledFrame =
        some s ∧ (s.threads .frame).vars.gathered = [16] ∧
      (newClient : ClientData ℚ).inputAccMs + (s.threads .frame).vars.gathered.sum =
        ((s.threads .network).vars.sent.map fun p => p.data.inputAccMs).sum +
          (s.threads .receiver).vars.discarded.sum + s.store .input := by
  obtain ⟨s, hs, hidle, hgathered⟩ := tangledFrame_run (F := ℚ)
  exact ⟨s, hs, hgathered, client_input_conserved hs hidle⟩

end CPong
