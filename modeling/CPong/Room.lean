import CPong.Client
import CPong.Framing
import CPong.Lib.System
import CPong.Server

/-!
# A room and its two clients

The server's part of one match, the two clients, and the streams between them. Every
packet passes through the codec of its sender and of its receiver. A step is a whole call of one
thread; `CPong.MatchSections` has the mutex sections of the calls.
-/

namespace CPong

set_option autoImplicit false

open Lib

/-- What the server sends at one moment, with the sync and the score it then has. -/
structure Message (F : Type) where
  packets : Fin 2 → Packet F
  ssync : I8
  score : Fin 2 → I32

/-- The stream to client `i` is the part of `sent` from `processed i` on; `up i` is the
stream from it. A client is `none` until `client_main` has its first packet. -/
structure RoomState (F : Type) where
  server : Globals F
  sent : List (Message F)
  processed : Fin 2 → Nat
  clients : Fin 2 → Option (ClientData F)
  up : Fin 2 → List (Packet F)

inductive RoomStep (F : Type) where
  | tick (tick : Tick)
  /-- `on_input_ready` for client `i`; its local packet holds `garbage` before -/
  | input (i : Fin 2) (garbage : Packet F)
  | receive (i : Fin 2)
  | frame (i : Fin 2) (up down : Bool) (deltaTime : I32) (fuel : Nat)
  | network (i : Fin 2)

/-- The match of a room and the machines it runs on. -/
structure Match (F : Type) where
  room : Room
  server : Host F
  client : Fin 2 → Host F

section
variable {F : Type} [Field F] [LinearOrder F] [FloorRing F] [Libm F] (m : Match F)

omit [Libm F] in
def clientReceive (i : Fin 2) (p : Packet F) (client : Option (ClientData F)) :
    Option (ClientData F) :=
  let packet := packetReceived m.server (m.client i) p Packet.zero
  match client with
  | none => clientMain packet Packet.zero.data.state
  | some args => (serverStateReceive args (packetFrame m.server p).length packet).2

omit [Libm F] in
def serverReceive (i : Fin 2) (p garbage : Packet F) (g : Globals F) : Globals F :=
  (onInputReady g (m.room.clients i) (packetFrame (m.client i) p).length
    (packetReceived (m.client i) m.server p garbage)).2

def roomStep (s : RoomState F) : RoomStep F → Option (RoomState F)
  | .tick tick =>
    (sendState tick s.server).map fun (packet, g) =>
      { s with server := g, sent := s.sent ++ [⟨fun _ => packet, g.ssync, g.state.score⟩] }
  | .input i garbage =>
    match s.up i with
    | [] => none
    | p :: rest =>
      some { s with
        server := serverReceive m i p garbage s.server
        up := Function.update s.up i rest }
  | .receive i => do
    let message ← s.sent[s.processed i]?
    let args ← clientReceive m i (message.packets i) (s.clients i)
    return { s with
      clients := Function.update s.clients i (some args)
      processed := Function.update s.processed i (s.processed i + 1) }
  | .frame i up down deltaTime fuel => do
    let args ← s.clients i
    let args ← update fuel args up down deltaTime
    return { s with clients := Function.update s.clients i (some args) }
  | .network i => do
    let args ← s.clients i
    let (packet, args) := networkUpdate args
    return { s with
      clients := Function.update s.clients i (some args)
      up := Function.update s.up i (s.up i ++ [packet]) }

def roomStart (rands : Rands) (g : Globals F) : RoomState F :=
  let g := (startPongGame m.room rands g).2
  { server := g
    sent := [⟨![initPacket g 0, initPacket g 1], g.ssync, g.state.score⟩]
    processed := fun _ => 0
    clients := fun _ => none
    up := fun _ => [] }

variable {m} {s t : RoomState F}

theorem roomStep_tick {tick : Tick} (h : roomStep m s (.tick tick) = some t) :
    ∃ packet g, sendState tick s.server = some (packet, g) ∧
      t = { s with server := g, sent := s.sent ++ [⟨fun _ => packet, g.ssync, g.state.score⟩] } := by
  obtain ⟨⟨packet, g⟩, htick, rfl⟩ := Option.map_eq_some_iff.mp h
  exact ⟨packet, g, htick, rfl⟩

theorem roomStep_input {i : Fin 2} {garbage : Packet F}
    (h : roomStep m s (.input i garbage) = some t) :
    ∃ p rest, s.up i = p :: rest ∧
      t = { s with
        server := serverReceive m i p garbage s.server
        up := Function.update s.up i rest } := by
  cases hup : s.up i with
  | nil =>
    simp only [roomStep, hup] at h
    cases h
  | cons p rest =>
    simp only [roomStep, hup] at h
    cases h
    exact ⟨p, rest, rfl, rfl⟩

theorem roomStep_receive {i : Fin 2} (h : roomStep m s (.receive i) = some t) :
    ∃ message args, s.sent[s.processed i]? = some message ∧
      clientReceive m i (message.packets i) (s.clients i) = some args ∧
      t = { s with
        clients := Function.update s.clients i (some args)
        processed := Function.update s.processed i (s.processed i + 1) } := by
  obtain ⟨message, hmessage, hrest⟩ := Option.bind_eq_some_iff.mp h
  obtain ⟨args, hargs, hres⟩ := Option.bind_eq_some_iff.mp hrest
  cases hres
  exact ⟨message, args, hmessage, hargs, rfl⟩

theorem roomStep_frame {i : Fin 2} {up down : Bool} {deltaTime : I32} {fuel : Nat}
    (h : roomStep m s (.frame i up down deltaTime fuel) = some t) :
    ∃ args args', s.clients i = some args ∧ update fuel args up down deltaTime = some args' ∧
      t = { s with clients := Function.update s.clients i (some args') } := by
  obtain ⟨args, hargs, hrest⟩ := Option.bind_eq_some_iff.mp h
  obtain ⟨args', hupdate, hres⟩ := Option.bind_eq_some_iff.mp hrest
  cases hres
  exact ⟨args, args', hargs, hupdate, rfl⟩

theorem roomStep_network {i : Fin 2} (h : roomStep m s (.network i) = some t) :
    ∃ args, s.clients i = some args ∧
      t = { s with
        clients := Function.update s.clients i (some (networkUpdate args).2)
        up := Function.update s.up i (s.up i ++ [(networkUpdate args).1]) } := by
  obtain ⟨args, hargs, hres⟩ := Option.bind_eq_some_iff.mp h
  cases hres
  exact ⟨args, hargs, rfl⟩

section
variable (sender receiver : Host F) {p : Packet F}

omit [Libm F] in
theorem packetReceived_header {k : CpongPacket} (h : p.type = k.code) (r : Packet F) :
    (packetReceived sender receiver p r).type = k.code ∧
      (packetReceived sender receiver p r).sync = p.sync := by
  rw [packetReceived_of_type sender receiver h]
  exact ⟨h, rfl⟩

omit [Libm F] in
theorem packetReceived_init (h : p.type = CpongPacket.init.code) (r : Packet F) :
    (packetReceived sender receiver p r).data.state.playerIds = p.data.state.playerIds ∧
      (packetReceived sender receiver p r).data.state.ownIdIndex = p.data.state.ownIdIndex ∧
      (packetReceived sender receiver p r).data.state.score = p.data.state.score := by
  rw [packetReceived_of_type sender receiver h]
  exact ⟨rfl, rfl, rfl⟩

omit [Libm F] in
theorem packetReceived_input (h : p.type = CpongPacket.input.code) (r : Packet F) :
    (packetReceived sender receiver p r).data.inputAccMs = p.data.inputAccMs := by
  rw [packetReceived_of_type sender receiver h]
  exact Function.update_self 0 p.data.inputAccMs r.data.state.playerIds

omit [Libm F] in
theorem packetFrame_length_pos {k : CpongPacket} (h : p.type = k.code) :
    0 < (packetFrame sender p).length := by
  rw [packetFrame_of_type sender h, length_frame]
  have hpos := payloadLength_pos k
  omega

end

section
variable {i : Fin 2} {p : Packet F} {args args' : ClientData F}

omit [Libm F] in
theorem clientReceive_first (m : Match F) (i : Fin 2) (h : p.type = CpongPacket.init.code) :
    ∃ args, clientReceive m i p none = some args ∧ args.sync = p.sync ∧ args.inputAccMs = 0 ∧
      args.localState.score = 0 ∧ args.localState.playerIds = p.data.state.playerIds ∧
      args.localState.ownIdIndex = p.data.state.ownIdIndex := by
  obtain ⟨htype, hsync⟩ := packetReceived_header m.server (m.client i) h Packet.zero
  obtain ⟨hids, hown, -⟩ := packetReceived_init m.server (m.client i) h Packet.zero
  simp only [clientReceive, clientMain, htype, ne_eq, not_true_eq_false, if_false]
  exact ⟨_, rfl, hsync, rfl, rfl, hids, hown⟩

omit [Libm F] in
theorem clientReceive_init (m : Match F) (i : Fin 2) (args : ClientData F)
    (h : p.type = CpongPacket.init.code) :
    ∃ args', clientReceive m i p (some args) = some args' ∧ args'.sync = p.sync ∧
      args'.localState.score = p.data.state.score ∧
      args'.localState.playerIds = p.data.state.playerIds ∧
      args'.localState.ownIdIndex = args.localState.ownIdIndex := by
  obtain ⟨htype, hsync⟩ := packetReceived_header m.server (m.client i) h Packet.zero
  obtain ⟨hids, -, hscore⟩ := packetReceived_init m.server (m.client i) h Packet.zero
  have hpos := packetFrame_length_pos m.server h
  have hres : ¬ ((packetFrame m.server p).length : Int) ≤ 0 := by omega
  have hstate : CpongPacket.init.code ≠ CpongPacket.state.code := by decide
  simp only [clientReceive, serverStateReceive, if_neg hres, htype, if_neg hstate, if_true]
  exact ⟨_, rfl, hsync, hscore, hids, rfl⟩

omit [Libm F] in
theorem clientReceive_state (m : Match F) (i : Fin 2) (args : ClientData F)
    (h : p.type = CpongPacket.state.code) :
    ∃ server, clientReceive m i p (some args) = some (receiveState args server) := by
  obtain ⟨htype, -⟩ := packetReceived_header m.server (m.client i) h Packet.zero
  have hpos := packetFrame_length_pos m.server h
  have hres : ¬ ((packetFrame m.server p).length : Int) ≤ 0 := by omega
  simp only [clientReceive, serverStateReceive, if_neg hres, htype, if_true]
  exact ⟨_, rfl⟩

theorem update_eq_some {fuel : Nat} {up down : Bool} {deltaTime : I32}
    (h : update fuel args up down deltaTime = some args') :
    ∃ localState, updateLocalState fuel args.localState deltaTime.toInt (inputDirection up down) =
        some localState ∧
      args' = { args with
        inputAccMs := args.inputAccMs + BitVec.ofInt 32 (inputDirection up down) * deltaTime
        localState := localState } := by
  obtain ⟨localState, hlocal, hres⟩ := Option.bind_eq_some_iff.mp h
  cases hres
  exact ⟨localState, hlocal, rfl⟩

theorem updateLocalState_eq_some {fuel : Nat} {localState st : PongState F}
    {deltaTime inputDirection : Int}
    (h : updateLocalState fuel localState deltaTime inputDirection = some st) :
    ∃ ball, st = { localState with
      ball := ball
      player1 := linearMove (if 0 = localState.ownIdIndex then
        steerOwn localState.player1 inputDirection else localState.player1) deltaTime
      player2 := linearMove (if 0 = localState.ownIdIndex then
        localState.player2 else steerOwn localState.player2 inputDirection) deltaTime } := by
  obtain ⟨advanced, -, hres⟩ := Option.bind_eq_some_iff.mp h
  cases hres
  refine ⟨advanced.ballUpd.getD .zero, ?_⟩
  by_cases hown : 0 = localState.ownIdIndex
  · simp only [if_pos hown]
  · simp only [if_neg hown]

end

end

end CPong
