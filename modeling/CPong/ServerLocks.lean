import CPong.Lib.LockProgress
import CPong.Lib.SerialOrder
import CPong.RoundSections

/-!
# The locks of the game server

The two threads of a room, `send_state` and `input_receive`, one lock, one access or one piece
of a thread's own work at a time.
-/

namespace CPong

set_option autoImplicit false

open Lib
open Lib.Locks

inductive ServerThread where
  | sendState
  | inputReceive
deriving DecidableEq, Repr

instance : Fintype ServerThread :=
  ⟨{ServerThread.sendState, ServerThread.inputReceive}, fun t => by cases t <;> simp⟩

inductive ServerMutex where
  | sync
  | input
deriving DecidableEq, Repr

/-- `ssync`, and the two accumulators. -/
abbrev ServerData : ServerMutex → Type
  | .sync => I8
  | .input => I32 × I32

/-- The variables of the thread of `send_state`. `state` is the static one: the other thread
reads only its ids, which stay. `taken` is the input that the ticks have taken. -/
structure SenderVars (F : Type) where
  place : Sender F
  state : PongState F
  player1Upd : GameObj F
  player2Upd : GameObj F
  ssync : I8
  packet : Packet F
  sent : List (Packet F)
  taken : List (I32 × I32)

inductive ReceiverPlace where
  | idle
  | checked (id inputAccMs : I32)
  | stopped
deriving DecidableEq, Repr

/-- The variables of the thread of `input_receive`. `accepted` is the input it has added, with
the client it is from. -/
structure ReceiverVars where
  place : ReceiverPlace
  ssync : I8
  inputAccMs : I32
  accepted : List (I32 × I32)

abbrev ServerVars (F : Type) : ServerThread → Type
  | .sendState => SenderVars F
  | .inputReceive => ReceiverVars

inductive SenderCall where
  | inputs
  | advance (tick : Tick)
  | score (rands : Rands)
  | announce

inductive ReceiverCall (F : Type) where
  | check (id : I32) (res : Int) (packet : Packet F)
  | accumulate

abbrev ServerCall (F : Type) : ServerThread → Type
  | .sendState => SenderCall
  | .inputReceive => ReceiverCall F

section
variable {F : Type} [Field F]

abbrev ServerOp (V : Type) := Op ServerMutex ServerData V

/-- The section of `send_state` under `input_mtx`. -/
def inputsOps : List (ServerOp (SenderVars F)) :=
  [.lock .input,
    .access .input fun (c : SenderVars F × (I32 × I32)) =>
      ({ c.1 with state := { c.1.state with player1 := steer c.1.state.player1 c.2.1 } }, c.2),
    .access .input fun (c : SenderVars F × (I32 × I32)) =>
      ({ c.1 with player1Upd := linearMove c.1.state.player1 c.2.1.abs.toInt }, c.2),
    .access .input fun (c : SenderVars F × (I32 × I32)) =>
      ({ c.1 with state := { c.1.state with player2 := steer c.1.state.player2 c.2.2 } }, c.2),
    .access .input fun (c : SenderVars F × (I32 × I32)) =>
      ({ c.1 with
        player2Upd := linearMove c.1.state.player2 c.2.2.abs.toInt
        taken := c.1.taken ++ [c.2] }, c.2),
    .access .input fun (c : SenderVars F × (I32 × I32)) => (c.1, (0, c.2.2)),
    .access .input fun (c : SenderVars F × (I32 × I32)) => (c.1, (c.2.1, 0)),
    .unlock .input,
    .own fun v => { v with place := .applied ⟨v.player1Upd, v.player2Upd⟩ }]

/-- `ssync++` reads and then writes. -/
def scoreOps [LinearOrder F] [FloorRing F] [Libm F] (i : Fin 2) (rands : Rands) : List (ServerOp (SenderVars F)) :=
  [.own fun v => { v with state := initGame v.state rands },
    .own fun v => { v with state := { v.state with
      score := Function.update v.state.score i (v.state.score i + 1) } },
    .lock .sync,
    .access .sync fun (c : SenderVars F × I8) => ({ c.1 with ssync := c.2 }, c.2),
    .access .sync fun (c : SenderVars F × I8) => (c.1, c.1.ssync + 1),
    .unlock .sync,
    .own fun v => { v with place := .scored }]

omit [Field F] in
def announceOps (type : CpongPacket) : List (ServerOp (SenderVars F)) :=
  [.lock .sync,
    .access .sync fun (c : SenderVars F × I8) =>
      ({ c.1 with packet := ⟨type.code, c.2, 0, ⟨c.1.state⟩⟩ }, c.2),
    .unlock .sync,
    .own fun v => { v with place := .idle, sent := v.sent ++ [v.packet] }]

variable [LinearOrder F] [FloorRing F] [Libm F]

def senderCode : SenderCall → SenderVars F → Option (List (ServerOp (SenderVars F)))
  | .inputs, v =>
    match v.place with
    | .idle => some inputsOps
    | _ => none
  | .advance tick, v =>
    match v.place with
    | .applied upds =>
      (sendStateAdvance tick upds ⟨v.state, v.ssync, 0, 0⟩).map fun (scoredIndex, g) =>
        [.own fun v => { v with state := g.state, place := .advanced scoredIndex }]
    | _ => none
  | .score rands, v =>
    match v.place with
    | .advanced scoredIndex =>
      if scoredIndex ≠ -1 then (playerIndex scoredIndex).map fun i => scoreOps i rands
      else none
    | _ => none
  | .announce, v =>
    match v.place with
    | .advanced scoredIndex => if scoredIndex ≠ -1 then none else some (announceOps .state)
    | .scored => some (announceOps .init)
    | _ => none

omit [Field F] [LinearOrder F] [FloorRing F] [Libm F] in
def checkOps (id : I32) (packet : Packet F) : List (ServerOp ReceiverVars) :=
  [.lock .sync,
    .access .sync fun (c : ReceiverVars × I8) => ({ c.1 with ssync := c.2 }, c.2),
    .unlock .sync,
    .own fun v =>
      if packet.sync ≠ v.ssync then v
      else if packet.type ≠ CpongPacket.input.code then v
      else { v with place := .checked id packet.data.inputAccMs }]

/-- `+=` reads and then writes. -/
def accumulateOps (room : Room) (id inputAccMs : I32) : List (ServerOp ReceiverVars) :=
  .lock .input ::
    (if room.clients 0 = id then
      [.access .input fun (c : ReceiverVars × (I32 × I32)) =>
          ({ c.1 with inputAccMs := c.2.1 }, c.2),
        .access .input fun (c : ReceiverVars × (I32 × I32)) =>
          (c.1, (c.1.inputAccMs + inputAccMs, c.2.2))]
    else if room.clients 1 = id then
      [.access .input fun (c : ReceiverVars × (I32 × I32)) =>
          ({ c.1 with inputAccMs := c.2.2 }, c.2),
        .access .input fun (c : ReceiverVars × (I32 × I32)) =>
          (c.1, (c.2.1, c.1.inputAccMs + inputAccMs))]
    else []) ++
  [.unlock .input,
    .own fun v => { v with place := .idle, accepted := v.accepted ++ [(id, inputAccMs)] }]

omit [Field F] [LinearOrder F] [FloorRing F] [Libm F] in
def receiverCode (room : Room) :
    ReceiverCall F → ReceiverVars → Option (List (ServerOp ReceiverVars))
  | .check id res packet, v =>
    match v.place with
    | .idle =>
      if res = 0 then some [.own fun v => { v with place := .stopped }]
      else some (checkOps id packet)
    | _ => none
  | .accumulate, v =>
    match v.place with
    | .checked id inputAccMs => some (accumulateOps room id inputAccMs)
    | _ => none

def serverCode (room : Room) : Code ServerData (ServerVars F) (ServerCall F)
  | .sendState => senderCode
  | .inputReceive => receiverCode room

/-- The section of the room that the call is. -/
def serverSection : (Σ t, ServerCall F t) → RoundSection F
  | ⟨.sendState, .inputs⟩ => .inputs
  | ⟨.sendState, .advance tick⟩ => .advance tick
  | ⟨.sendState, .score rands⟩ => .score rands
  | ⟨.sendState, .announce⟩ => .announce
  | ⟨.inputReceive, .check id res packet⟩ => .check id res packet
  | ⟨.inputReceive, .accumulate⟩ => .accumulate

end

section
variable {F : Type} [Field F] [LinearOrder F] [FloorRing F] [Libm F]

section Begins

inductive SenderBegins (v : SenderVars F) : SenderCall → List (ServerOp (SenderVars F)) → Prop
    where
  | inputs (hplace : v.place = .idle) : SenderBegins v .inputs inputsOps
  | advance (tick : Tick) (upds : PlayerUpds F) (scoredIndex : Int) (g : Globals F)
      (hplace : v.place = .applied upds)
      (hadvance : sendStateAdvance tick upds ⟨v.state, v.ssync, 0, 0⟩ = some (scoredIndex, g)) :
      SenderBegins v (.advance tick)
        [.own fun v => { v with state := g.state, place := .advanced scoredIndex }]
  | score (rands : Rands) (scoredIndex : Int) (i : Fin 2) (hplace : v.place = .advanced scoredIndex)
      (hscored : scoredIndex ≠ -1) (hi : playerIndex scoredIndex = some i) :
      SenderBegins v (.score rands) (scoreOps i rands)
  | state (hplace : v.place = .advanced (-1)) : SenderBegins v .announce (announceOps .state)
  | init (hplace : v.place = .scored) : SenderBegins v .announce (announceOps .init)

theorem senderCode_begins {call : SenderCall} {v : SenderVars F}
    {ops : List (ServerOp (SenderVars F))} (h : senderCode call v = some ops) :
    SenderBegins v call ops := by
  cases call with
  | inputs =>
    cases hplace : v.place with
    | idle =>
      simp only [senderCode, hplace, Option.some.injEq] at h
      subst h
      exact .inputs hplace
    | _ =>
      simp only [senderCode, hplace] at h
      cases h
  | advance tick =>
    cases hplace : v.place with
    | applied upds =>
      simp only [senderCode, hplace, Option.map_eq_some_iff] at h
      obtain ⟨⟨scoredIndex, g⟩, hadvance, rfl⟩ := h
      exact .advance tick upds scoredIndex g hplace hadvance
    | _ =>
      simp only [senderCode, hplace] at h
      cases h
  | score rands =>
    cases hplace : v.place with
    | advanced scoredIndex =>
      simp only [senderCode, hplace, Option.ite_none_right_eq_some, Option.map_eq_some_iff] at h
      obtain ⟨hscored, i, hi, rfl⟩ := h
      exact .score rands scoredIndex i hplace hscored hi
    | _ =>
      simp only [senderCode, hplace] at h
      cases h
  | announce =>
    cases hplace : v.place with
    | advanced scoredIndex =>
      simp only [senderCode, hplace, Option.ite_none_left_eq_some, Option.some.injEq,
        not_not] at h
      obtain ⟨rfl, rfl⟩ := h
      exact .state hplace
    | scored =>
      simp only [senderCode, hplace, Option.some.injEq] at h
      subst h
      exact .init hplace
    | _ =>
      simp only [senderCode, hplace] at h
      cases h

omit [Field F] [LinearOrder F] [FloorRing F] [Libm F] in
inductive ReceiverBegins (room : Room) (v : ReceiverVars) :
    ReceiverCall F → List (ServerOp ReceiverVars) → Prop where
  | stop (id : I32) (packet : Packet F) (hplace : v.place = .idle) :
      ReceiverBegins room v (.check id 0 packet) [.own fun v => { v with place := .stopped }]
  | check (id : I32) (res : Int) (packet : Packet F) (hplace : v.place = .idle) (hres : res ≠ 0) :
      ReceiverBegins room v (.check id res packet) (checkOps id packet)
  | accumulate (id inputAccMs : I32) (hplace : v.place = .checked id inputAccMs) :
      ReceiverBegins room v .accumulate (accumulateOps room id inputAccMs)

omit [Field F] [LinearOrder F] [FloorRing F] [Libm F] in
theorem receiverCode_begins {room : Room} {call : ReceiverCall F} {v : ReceiverVars}
    {ops : List (ServerOp ReceiverVars)} (h : receiverCode room call v = some ops) :
    ReceiverBegins room v call ops := by
  cases call with
  | check id res packet =>
    cases hplace : v.place with
    | idle =>
      simp only [receiverCode, hplace] at h
      by_cases hres : res = 0
      · rw [if_pos hres] at h
        cases h
        subst hres
        exact .stop id packet hplace
      · rw [if_neg hres] at h
        cases h
        exact .check id res packet hplace hres
    | _ =>
      simp only [receiverCode, hplace] at h
      cases h
  | accumulate =>
    cases hplace : v.place with
    | checked id inputAccMs =>
      simp only [receiverCode, hplace, Option.some.injEq] at h
      subst h
      exact .accumulate id inputAccMs hplace
    | _ =>
      simp only [receiverCode, hplace] at h
      cases h

theorem serverCode_disciplined (room : Room) (t : ServerThread) (call : ServerCall F t)
    (v : ServerVars F t) (ops : List (ServerOp (ServerVars F t)))
    (h : serverCode room t call v = some ops) : Disciplined (fun _ => 0) ∅ ops := by
  cases t with
  | sendState =>
    cases senderCode_begins h with
    | inputs => simp [inputsOps, Disciplined, Releasing]
    | advance => simp [Disciplined, Releasing]
    | score => simp [scoreOps, Disciplined, Releasing]
    | state => simp [announceOps, Disciplined, Releasing]
    | init => simp [announceOps, Disciplined, Releasing]
  | inputReceive =>
    cases receiverCode_begins h with
    | stop => simp [Disciplined, Releasing]
    | check => simp [checkOps, Disciplined, Releasing]
    | accumulate id inputAccMs =>
      unfold accumulateOps
      split_ifs <;> simp [Disciplined, Releasing]

end Begins

section
variable (store : Store ServerData)

omit [LinearOrder F] [FloorRing F] [Libm F] in
theorem execute_inputs (v : SenderVars F) (ssync : I8) :
    execute inputsOps (v, store) =
      let g : Globals F := ⟨v.state, ssync, (store .input).1, (store .input).2⟩
      ({ v with
        place := .applied (sendStateInputs g).1
        state := (sendStateInputs g).2.state
        player1Upd := (sendStateInputs g).1.player1
        player2Upd := (sendStateInputs g).1.player2
        taken := v.taken ++ [store .input] }, Function.update store .input (0, 0)) := by
  simp [inputsOps, execute, sendStateInputs]

theorem execute_score (v : SenderVars F) (i : Fin 2) (rands : Rands) (input1 input2 : I32) :
    execute (scoreOps i rands) (v, store) =
      let g := scorePoint i rands ⟨v.state, store .sync, input1, input2⟩
      ({ v with place := .scored, state := g.state, ssync := store .sync },
        Function.update store .sync g.ssync) := by
  simp [scoreOps, execute, scorePoint]

omit [Field F] [LinearOrder F] [FloorRing F] [Libm F] in
theorem execute_announce (v : SenderVars F) (type : CpongPacket) (input1 input2 : I32) :
    execute (announceOps type) (v, store) =
      let packet := sendStatePacket type ⟨v.state, store .sync, input1, input2⟩
      ({ v with place := .idle, packet := packet, sent := v.sent ++ [packet] }, store) := by
  simp [announceOps, execute, sendStatePacket]

omit [Field F] [LinearOrder F] [FloorRing F] [Libm F] in
theorem execute_check (v : ReceiverVars) (id : I32) (packet : Packet F) :
    execute (checkOps id packet) (v, store) =
      ({ v with
        place := if packet.sync ≠ store .sync then v.place
          else if packet.type ≠ CpongPacket.input.code then v.place
          else .checked id packet.data.inputAccMs
        ssync := store .sync }, store) := by
  simp only [checkOps, execute, Function.update_eq_self]
  split_ifs <;> rfl

omit [Field F] [LinearOrder F] [FloorRing F] [Libm F] in
theorem execute_accumulate (v : ReceiverVars) (room : Room) (g : Globals F) (id inputAccMs : I32)
    (hids : g.state.playerIds = room.clients) (hinput : store .input = (g.input1, g.input2)) :
    ∃ register, execute (accumulateOps room id inputAccMs) (v, store) =
      ({ v with
        place := .idle
        inputAccMs := register
        accepted := v.accepted ++ [(id, inputAccMs)] },
        Function.update store .input ((onInputReadyAccumulate g id inputAccMs).input1,
          (onInputReadyAccumulate g id inputAccMs).input2)) := by
  unfold accumulateOps onInputReadyAccumulate
  rw [hids]
  split_ifs
  · exact ⟨_, by simp [execute, hinput]; rfl⟩
  · exact ⟨_, by simp [execute, hinput]; rfl⟩
  · exact ⟨_, by simp [execute, ← hinput]; rfl⟩

end

def Receiver.place : Receiver → ReceiverPlace
  | .idle => .idle
  | .checked id inputAccMs _ => .checked id inputAccMs
  | .stopped => .stopped

/-- The threads between their calls, and the room between its sections. -/
structure ServerView (room : Room) (sender : SenderVars F) (receiver : ReceiverVars)
    (store : Store ServerData) (s : RoundServer F) : Prop where
  ids : s.globals.state.playerIds = room.clients
  globals : s.globals = ⟨sender.state, store .sync, (store .input).1, (store .input).2⟩
  senderPlace : s.sender = sender.place
  receiverPlace : s.receiver.place = receiver.place
  sent : s.sent = sender.sent

abbrev serverView (room : Room) (a : Serial ServerData (ServerVars F)) : RoundServer F → Prop :=
  ServerView room (a.vars .sendState) (a.vars .inputReceive) a.store

section
variable {room : Room} {a a' : Serial ServerData (ServerVars F)} {s : RoundServer F}

variable {sender : SenderVars F} {receiver : ReceiverVars} {store : Store ServerData}

theorem ServerView.sendState {call : SenderCall} {ops : List (ServerOp (SenderVars F))}
    (hv : ServerView room sender receiver store s) (h : SenderBegins sender call ops) :
    ∃ s', roundStep s (serverSection ⟨.sendState, call⟩) = some s' ∧
      ServerView room (execute ops (sender, store)).1 receiver (execute ops (sender, store)).2
        s' := by
  have hplace := hv.senderPlace
  have hids := hv.ids
  rw [hv.globals] at hids
  cases h with
  | inputs hidle =>
    rw [hidle] at hplace
    simp only [serverSection, roundStep, hplace]
    refine ⟨_, rfl, ?_⟩
    rw [execute_inputs store sender (store .sync), hv.globals]
    exact ⟨hids, by simp [sendStateInputs], rfl, hv.receiverPlace, hv.sent⟩
  | advance tick upds scoredIndex g happlied hadvance =>
    rw [happlied] at hplace
    obtain ⟨advanced, hrun, hres⟩ := Option.bind_eq_some_iff.mp hadvance
    cases hres
    have hsame : sendStateAdvance tick upds s.globals =
        some (advanced.scoredIndex.getD tick.scoredIndex,
          moveObjects upds (advanced.ballUpd.getD .zero) s.globals) := by
      rw [hv.globals]
      exact Option.bind_eq_some_iff.mpr ⟨advanced, hrun, rfl⟩
    simp only [serverSection, roundStep, hplace, hsame, Option.map_some]
    refine ⟨_, rfl, ?_⟩
    rw [hv.globals]
    exact ⟨hids, rfl, rfl, hv.receiverPlace, hv.sent⟩
  | score rands scoredIndex i hadvanced hscored hi =>
    rw [hadvanced] at hplace
    have hpoint : sendStateScore scoredIndex rands s.globals =
        some (scorePoint i rands s.globals) := by
      rw [sendStateScore, hi]
      rfl
    simp only [serverSection, roundStep, hplace, if_pos hscored, hpoint, Option.map_some]
    refine ⟨_, rfl, ?_⟩
    rw [execute_score store sender i rands (store .input).1 (store .input).2, hv.globals]
    exact ⟨hids, by simp [scorePoint], rfl, hv.receiverPlace, hv.sent⟩
  | state hadvanced =>
    rw [hadvanced] at hplace
    simp only [serverSection, roundStep, hplace, ne_eq, not_true_eq_false, if_false]
    refine ⟨_, rfl, ?_⟩
    rw [execute_announce store sender .state (store .input).1 (store .input).2]
    exact ⟨hv.ids, hv.globals, rfl, hv.receiverPlace, by rw [hv.sent, hv.globals]⟩
  | init hscored =>
    rw [hscored] at hplace
    simp only [serverSection, roundStep, hplace]
    refine ⟨_, rfl, ?_⟩
    rw [execute_announce store sender .init (store .input).1 (store .input).2]
    exact ⟨hv.ids, hv.globals, rfl, hv.receiverPlace, by rw [hv.sent, hv.globals]⟩

theorem ServerView.inputReceive {call : ReceiverCall F} {ops : List (ServerOp ReceiverVars)}
    (hv : ServerView room sender receiver store s) (h : ReceiverBegins room receiver call ops) :
    ∃ s', roundStep s (serverSection ⟨.inputReceive, call⟩) = some s' ∧
      ServerView room sender (execute ops (receiver, store)).1 (execute ops (receiver, store)).2
        s' := by
  have hplace := hv.receiverPlace
  cases h with
  | stop id packet hidle =>
    rw [hidle] at hplace
    cases hr : s.receiver with
    | idle =>
      simp only [serverSection, roundStep, hr, if_true]
      exact ⟨_, rfl, hv.ids, hv.globals, hv.senderPlace, rfl, hv.sent⟩
    | _ =>
      rw [hr] at hplace
      cases hplace
  | check id res packet hidle hres =>
    rw [hidle] at hplace
    cases hr : s.receiver with
    | idle =>
      rw [execute_check]
      have hsync : s.globals.ssync = store .sync := by rw [hv.globals]
      simp only [serverSection, roundStep, hr, if_neg hres, hsync]
      by_cases hother : packet.sync ≠ store .sync
      · simp only [if_pos hother]
        exact ⟨_, rfl, hv.ids, hv.globals, hv.senderPlace, hv.receiverPlace, hv.sent⟩
      by_cases htype : packet.type ≠ CpongPacket.input.code
      · simp only [if_neg hother, if_pos htype]
        exact ⟨_, rfl, hv.ids, hv.globals, hv.senderPlace, hv.receiverPlace, hv.sent⟩
      · simp only [if_neg hother, if_neg htype]
        exact ⟨_, rfl, hv.ids, hv.globals, hv.senderPlace, rfl, hv.sent⟩
    | _ =>
      rw [hr] at hplace
      cases hplace
  | accumulate id inputAccMs hchecked =>
    rw [hchecked] at hplace
    cases hr : s.receiver with
    | checked id' ms tag =>
      rw [hr] at hplace
      cases hplace
      have hinput : store .input = (s.globals.input1, s.globals.input2) := by rw [hv.globals]
      obtain ⟨register, hexec⟩ :=
        execute_accumulate store receiver room s.globals id inputAccMs hv.ids hinput
      rw [hexec]
      simp only [serverSection, roundStep, hr]
      have hstate := onInputReadyAccumulate_state s.globals id inputAccMs
      have hsync := onInputReadyAccumulate_ssync s.globals id inputAccMs
      refine ⟨_, rfl, ?_, Globals.ext ?_ ?_ ?_ ?_, (s.credit_sender ..).trans hv.senderPlace, rfl,
        (s.credit_sent ..).trans hv.sent⟩
      · exact (congrArg PongState.playerIds hstate).trans hv.ids
      · rw [hstate, hv.globals]
      · rw [hsync, hv.globals]
        simp
      · simp
      · simp
    | _ =>
      rw [hr] at hplace
      cases hplace

theorem serverView_step {call : Σ t, ServerCall F t} (hv : serverView room a s)
    (h : serialStep (serverCode room) a call = some a') :
    ∃ s', roundStep s (serverSection call) = some s' ∧ serverView room a' s' := by
  obtain ⟨t, call⟩ := call
  obtain ⟨ops, hops, hself, hother, hstore⟩ := serialStep_eq_some h
  cases t with
  | sendState =>
    obtain ⟨s', hstep, hv'⟩ := ServerView.sendState hv (senderCode_begins hops)
    refine ⟨s', hstep, ?_⟩
    rw [serverView, hself, hother .inputReceive (by decide), hstore]
    exact hv'
  | inputReceive =>
    obtain ⟨s', hstep, hv'⟩ := ServerView.inputReceive hv (receiverCode_begins hops)
    refine ⟨s', hstep, ?_⟩
    rw [serverView, hself, hother .sendState (by decide), hstore]
    exact hv'

end

/-- The threads as `start_pong_game` starts them. -/
def serverVars (room : Room) (rands : Rands) (g : Globals F) : ∀ t, ServerVars F t
  | .sendState =>
    { place := .idle
      state := (startPongGame room rands g).2.state
      player1Upd := .zero
      player2Upd := .zero
      ssync := 0
      packet := .zero
      sent := []
      taken := [] }
  | .inputReceive => ⟨.idle, 0, 0, []⟩

def serverStore (g : Globals F) : Store ServerData
  | .sync => g.ssync
  | .input => (0, 0)

def serverStart (room : Room) (rands : Rands) (g : Globals F) :
    Machine ServerData (ServerVars F) (ServerCall F) :=
  Locks.start (serverVars room rands g) (serverStore g)

section
variable {room : Room} {rands : Rands} {g : Globals F}
  {s : Machine ServerData (ServerVars F) (ServerCall F)} {ls : List (Action (ServerCall F))}

theorem server_serializes
    (h : System.run (step (serverCode room)) (serverStart room rands g) ls = some s) :
    Sound (fun _ => 0) s ∧
      ∃ a, Serializes (serverCode room) ⟨serverVars room rands g, serverStore g⟩ s a :=
  serializes_of_run (serverCode_disciplined room) h

/-- Operation by operation, in any interleaving, the two threads do what the sections of the
room do in the order of the last locks, and who accesses what a mutex guards holds it. -/
theorem server_sections
    (h : System.run (step (serverCode room)) (serverStart room rands g) ls = some s) :
    (∃ r : RoundServer F, System.run roundStep (RoundServer.initial room rands g)
        (s.order.map serverSection) = some r ∧
      (Idle s → ServerView room (s.threads .sendState).vars (s.threads .inputReceive).vars
        s.store r)) ∧
    (∀ t, s.order.filter (fun call => call.1 = t) ++ waiting s t =
      (calls ls).filter fun call => call.1 = t) ∧
    ∀ t m f ops, (s.threads t).rest = .access m f :: ops → s.owner m = some t := by
  obtain ⟨hs, a, ha⟩ := server_serializes h
  refine ⟨?_, ?_, ?_⟩
  · have h0 : serverView room ⟨serverVars room rands g, serverStore g⟩
        (RoundServer.initial room rands g) := ⟨rfl, rfl, rfl, rfl, rfl⟩
    obtain ⟨r, hr, hview⟩ := System.run_map (R := serverView room)
      (fun a s call a' hv hstep => serverView_step hv hstep) h0 ha.run
    refine ⟨r, hr, fun hidle => ?_⟩
    obtain ⟨hstore, hvars⟩ := ha.idle hs hidle
    rw [serverView, hvars, hvars, hstore] at hview
    exact hview
  · intro t
    exact callsOf_run h t
  · intro t m f ops hrest
    have ht := hs t
    rw [hrest] at ht
    exact ht.1

/-- Neither thread ever waits for ever: the one or the other can go on, and whatever they have
begun they end, in as many steps as there are operations left. -/
theorem server_never_stuck
    (h : System.run (step (serverCode room)) (serverStart room rands g) ls = some s) :
    (¬ Idle s → ∃ t s', step (serverCode room) s (.next t) = some s') ∧
      (∃ (ts : List ServerThread) (s' : Machine ServerData (ServerVars F) (ServerCall F)),
        System.run (step (serverCode room)) s (ts.map .next) = some s' ∧ Idle s') ∧
      ∀ (ts : List ServerThread) s',
        System.run (step (serverCode room)) s (ts.map .next) = some s' →
          ts.length + work s' = work s := by
  obtain ⟨hs, -⟩ := server_serializes h
  refine ⟨exists_next _ (fun _ => Nat.le_refl 0) hs, ?_, fun _ _ hrun => work_run hrun⟩
  exact exists_idle (serverCode_disciplined room) (fun _ => Nat.le_refl 0) hs

end

end

section Run

def oneRoom : Room := ⟨![1, 2]⟩

def tangledStart : Machine ServerData (ServerVars ℚ) (ServerCall ℚ) :=
  serverStart oneRoom ⟨0, 1, 1⟩ .zero

/-- Input is added while a tick waits for the accumulators. -/
def tangledInput : List (Action (ServerCall ℚ)) :=
  .call .inputReceive (.check 1 10 ⟨1, 0, 4, Packet.zero.data.setInputAccMs 100⟩) ::
    List.replicate 4 (.next .inputReceive) ++
  [.call .inputReceive .accumulate, .call .sendState .inputs] ++
    List.replicate 4 (.next .inputReceive) ++
  [.next .sendState, .next .inputReceive] ++ List.replicate 8 (.next .sendState)

theorem tangledInput_run :
    ∃ s, System.run (step (serverCode oneRoom)) tangledStart tangledInput = some s ∧ Idle s ∧
      (s.threads .inputReceive).vars.accepted = [(1, 100)] := by
  have hrun : (System.run (step (serverCode oneRoom)) tangledStart tangledInput).map (fun s =>
      ((s.threads .sendState).rest.isEmpty, (s.threads .inputReceive).rest.isEmpty,
        (s.threads .inputReceive).vars.accepted)) = some (true, true, [(1, 100)]) := by
    decide +kernel
  obtain ⟨s, hs, hends⟩ := Option.map_eq_some_iff.mp hrun
  have hsend := congrArg Prod.fst hends
  have hreceive := congrArg (fun ends => ends.2.1) hends
  refine ⟨s, hs, fun t => ?_, congrArg (fun ends => ends.2.2) hends⟩
  cases t with
  | sendState => exact List.isEmpty_iff.mp hsend
  | inputReceive => exact List.isEmpty_iff.mp hreceive

theorem server_sections_tangled :
    ∃ s, System.run (step (serverCode oneRoom)) tangledStart tangledInput = some s ∧
      ((∃ r : RoundServer ℚ, System.run roundStep (RoundServer.initial oneRoom ⟨0, 1, 1⟩ .zero)
          (s.order.map serverSection) = some r ∧
        (Idle s → ServerView oneRoom (s.threads .sendState).vars (s.threads .inputReceive).vars
          s.store r)) ∧
      (∀ t, s.order.filter (fun call => call.1 = t) ++ waiting s t =
        (calls tangledInput).filter fun call => call.1 = t) ∧
      ∀ t m f ops, (s.threads t).rest = .access m f :: ops → s.owner m = some t) := by
  obtain ⟨s, hs, -⟩ := tangledInput_run
  exact ⟨s, hs, server_sections hs⟩

/-- In the middle of it a tick waits for the mutex that `input_receive` holds. -/
theorem server_never_stuck_tangled :
    ∃ s, System.run (step (serverCode oneRoom)) tangledStart (tangledInput.take 9) = some s ∧
      step (serverCode oneRoom) s (.next .sendState) = none ∧
      (¬ Idle s → ∃ t s', step (serverCode oneRoom) s (.next t) = some s') ∧
      (∃ (ts : List ServerThread) (s' : Machine ServerData (ServerVars ℚ) (ServerCall ℚ)),
        System.run (step (serverCode oneRoom)) s (ts.map .next) = some s' ∧ Idle s') ∧
      ∀ (ts : List ServerThread) s',
        System.run (step (serverCode oneRoom)) s (ts.map .next) = some s' →
          ts.length + work s' = work s := by
  have hrun : (System.run (step (serverCode oneRoom)) tangledStart (tangledInput.take 9)).map
      (fun s => (step (serverCode oneRoom) s (.next .sendState)).isNone) = some true := by
    decide +kernel
  obtain ⟨s, hs, hwaits⟩ := Option.map_eq_some_iff.mp hrun
  exact ⟨s, hs, Option.isNone_iff_eq_none.mp hwaits, server_never_stuck hs⟩

end Run

def playerInput (i : Fin 2) (input : I32 × I32) : I32 := if i = 0 then input.1 else input.2

/-- What an accepted input adds for player `i`. -/
def creditOf (room : Room) (i : Fin 2) (input : I32 × I32) : I32 :=
  if room.clients 0 = input.1 then (if i = 0 then input.2 else 0)
  else if room.clients 1 = input.1 then (if i = 0 then 0 else input.2)
  else 0

section
variable {F : Type} [Field F] [LinearOrder F] [FloorRing F] [Libm F] {room : Room}

/-- All that has been accepted has been taken by a tick or is in the accumulators. -/
def InputConserved (room : Room) (a : Serial ServerData (ServerVars F)) : Prop :=
  ∀ i, ((a.vars .inputReceive).accepted.map (creditOf room i)).sum =
    ((a.vars .sendState).taken.map (playerInput i)).sum + playerInput i (a.store .input)

omit [Field F] [LinearOrder F] [FloorRing F] [Libm F] in
theorem playerInput_accumulate (g : Globals F) (hids : g.state.playerIds = room.clients)
    (i : Fin 2) (id inputAccMs : I32) :
    playerInput i ((onInputReadyAccumulate g id inputAccMs).input1,
        (onInputReadyAccumulate g id inputAccMs).input2) =
      playerInput i (g.input1, g.input2) + creditOf room i (id, inputAccMs) := by
  unfold playerInput creditOf onInputReadyAccumulate
  rw [hids]
  split_ifs <;> simp

theorem InputConserved.step {a a' : Serial ServerData (ServerVars F)} {call : Σ t, ServerCall F t}
    (ha : InputConserved room a) (h : serialStep (serverCode room) a call = some a') :
    InputConserved room a' := by
  obtain ⟨t, call⟩ := call
  obtain ⟨ops, hops, hself, hother, hstore⟩ := serialStep_eq_some h
  intro i
  have hi := ha i
  cases t with
  | sendState =>
    rw [hself, hother .inputReceive (by decide), hstore]
    cases senderCode_begins hops with
    | inputs hidle =>
      rw [execute_inputs a.store _ 0]
      simp only [List.map_append, List.map_cons, List.map_nil, List.sum_append, List.sum_singleton,
        Function.update_self]
      rw [hi]
      simp [playerInput]
    | advance tick upds scoredIndex g happlied hadvance => exact hi
    | score rands scoredIndex j hadvanced hscored hj =>
      rw [execute_score a.store _ j rands 0 0]
      simpa using hi
    | state hadvanced => simpa [announceOps, execute] using hi
    | init hscored => simpa [announceOps, execute] using hi
  | inputReceive =>
    rw [hself, hother .sendState (by decide), hstore]
    cases receiverCode_begins hops with
    | stop id packet hidle => exact hi
    | check id res packet hidle hres =>
      rw [execute_check]
      exact hi
    | accumulate id inputAccMs hchecked =>
      obtain ⟨register, hexec⟩ := execute_accumulate a.store (a.vars .inputReceive) room
        ⟨{ (Globals.zero : Globals F).state with playerIds := room.clients }, 0,
          (a.store .input).1, (a.store .input).2⟩ id inputAccMs rfl rfl
      rw [hexec]
      simp only [List.map_append, List.map_cons, List.map_nil, List.sum_append, List.sum_singleton,
        Function.update_self]
      rw [hi, playerInput_accumulate _ rfl, add_assoc]

/-- No interleaving of the reads and writes loses input or counts it twice: whenever neither
thread is inside a call, what `input_receive` has added is what the ticks have taken, and the
rest is in the accumulators. -/
theorem server_input_conserved {rands : Rands} {g : Globals F}
    {s : Machine ServerData (ServerVars F) (ServerCall F)} {ls : List (Action (ServerCall F))}
    (h : System.run (step (serverCode room)) (serverStart room rands g) ls = some s)
    (hidle : Idle s) (i : Fin 2) :
    ((s.threads .inputReceive).vars.accepted.map (creditOf room i)).sum =
      ((s.threads .sendState).vars.taken.map (playerInput i)).sum +
        playerInput i (s.store .input) := by
  obtain ⟨hs, a, ha⟩ := server_serializes h
  have h0 : InputConserved room ⟨serverVars room rands g, serverStore g⟩ := by
    intro i
    simp [serverVars, serverStore, playerInput]
  have hend := System.invariant (I := InputConserved room)
    (fun a call a' hI hstep => hI.step hstep) h0 ha.run i
  obtain ⟨hstore, hvars⟩ := ha.idle hs hidle
  rw [hvars, hvars, hstore] at hend
  exact hend

end

theorem server_input_conserved_tangled :
    ∃ s, System.run (step (serverCode oneRoom)) tangledStart tangledInput = some s ∧
      (s.threads .inputReceive).vars.accepted = [(1, 100)] ∧
      ∀ i, ((s.threads .inputReceive).vars.accepted.map (creditOf oneRoom i)).sum =
        ((s.threads .sendState).vars.taken.map (playerInput i)).sum +
          playerInput i (s.store .input) := by
  obtain ⟨s, hs, hidle, haccepted⟩ := tangledInput_run
  exact ⟨s, hs, haccepted, server_input_conserved hs hidle⟩

end CPong
