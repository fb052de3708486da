import CPong.ClientSections
import CPong.PaddlePrediction

/-!
# A match section by section

The sections of the server's threads and of the threads of both clients with the streams
between them, in any interleaving. Where a step of `roomStep` is a whole call, the calls of
different threads here overlap.
-/

namespace CPong

set_option autoImplicit false

open Lib

/-- `down i` is the stream to client `i` and `up i` the stream from it. A client is `none` until
`client_main` has its first packet. -/
structure MatchThreads (F : Type) where
  server : RoundServer F
  clients : Fin 2 → Option (ClientThreads F)
  down : Fin 2 → List (Packet F)
  up : Fin 2 → List (Packet F)

inductive MatchSection (F : Type) where
  /-- `recv_packet` of a packet of client `i` and the check of its sync; the local packet holds
  `garbage` before -/
  | check (i : Fin 2) (garbage : Packet F)
  | accumulate
  | inputs
  | advance (tick : Tick)
  | score (rands : Rands)
  | announce
  | receive (i : Fin 2)
  | setSync (i : Fin 2)
  | zeroInput (i : Fin 2)
  | paddleInputs (i : Fin 2) (up down : Bool) (deltaTime : I32)
  | localState (i : Fin 2) (fuel : Nat)
  | network (i : Fin 2)

section
variable {F : Type} [Field F] [LinearOrder F] [FloorRing F] [Libm F] (m : Match F)

/-- The client after its `network_update`. -/
def ClientThreads.networked (c : ClientThreads F) : ClientThreads F :=
  { c with
    args := (networkUpdate c.args).2
    pending := []
    sent := c.sent ++ [⟨(networkUpdate c.args).1, c.round, c.pending⟩] }

def onServer (s : MatchThreads F) (l : RoundSection F) : Option (MatchThreads F) :=
  (roundStep s.server l).map fun server => { s with server := server }

def onClient (s : MatchThreads F) (i : Fin 2) (l : ClientSection F) :
    Option (MatchThreads F) := do
  let client ← s.clients i
  let client ← clientStep client l
  return { s with clients := Function.update s.clients i (some client) }

def matchStep (s : MatchThreads F) : MatchSection F → Option (MatchThreads F)
  | .check i garbage =>
    match s.up i with
    | [] => none
    | p :: rest =>
      onServer { s with up := Function.update s.up i rest }
        (.check (m.room.clients i) (packetFrame (m.client i) p).length
          (packetReceived (m.client i) m.server p garbage))
  | .accumulate => onServer s .accumulate
  | .inputs => onServer s .inputs
  | .advance tick => onServer s (.advance tick)
  | .score rands => onServer s (.score rands)
  | .announce => do
    let server ← roundStep s.server .announce
    return { s with
      server := server
      down := fun i => s.down i ++ server.sent.drop s.server.sent.length }
  | .receive i =>
    match s.down i, s.clients i with
    | [], _ => none
    | p :: rest, none =>
      (clientMain (packetReceived m.server (m.client i) p Packet.zero)
        Packet.zero.data.state).map fun args =>
          { s with
            clients := Function.update s.clients i (some (.initial args))
            down := Function.update s.down i rest }
    | p :: rest, some _ =>
      onClient { s with down := Function.update s.down i rest } i
        (.receive (packetFrame m.server p).length
          (packetReceived m.server (m.client i) p Packet.zero))
  | .setSync i => onClient s i .setSync
  | .zeroInput i => onClient s i .zeroInput
  | .paddleInputs i up down deltaTime => onClient s i (.paddleInputs up down deltaTime)
  | .localState i fuel => onClient s i (.localState fuel)
  | .network i => do
    let client ← s.clients i
    let client' ← clientStep client .network
    return { s with
      clients := Function.update s.clients i (some client')
      up := Function.update s.up i
        (s.up i ++ (client'.sent.drop client.sent.length).map Outgoing.packet) }

/-- `start_pong_game` has sent both clients their first packet. -/
def matchBegin (rands : Rands) (g : Globals F) : MatchThreads F :=
  let g := (startPongGame m.room rands g).2
  { server := { RoundServer.initial m.room rands g with globals := g }
    clients := fun _ => none
    down := fun i => [initPacket g (ownIndex i)]
    up := fun _ => [] }

variable {m} {s t : MatchThreads F} {i : Fin 2}

theorem onServer_eq_some {l : RoundSection F} (h : onServer s l = some t) :
    ∃ server, roundStep s.server l = some server ∧ t = { s with server := server } := by
  obtain ⟨server, hserver, rfl⟩ := Option.map_eq_some_iff.mp h
  exact ⟨server, hserver, rfl⟩

theorem onClient_eq_some {l : ClientSection F} (h : onClient s i l = some t) :
    ∃ client client', s.clients i = some client ∧ clientStep client l = some client' ∧
      t = { s with clients := Function.update s.clients i (some client') } := by
  obtain ⟨client, hclient, hrest⟩ := Option.bind_eq_some_iff.mp h
  obtain ⟨client', hclient', hres⟩ := Option.bind_eq_some_iff.mp hrest
  cases hres
  exact ⟨client, client', hclient, hclient', rfl⟩

/-- A `PACKET_INPUT` is kept for the accumulator if it has the current sync. -/
theorem matchStep_check {garbage : Packet F} (h : matchStep m s (.check i garbage) = some t)
    (hinput : ∀ p ∈ s.up i, p.type = CpongPacket.input.code) :
    ∃ p rest receiver, s.up i = p :: rest ∧ s.server.receiver = .idle ∧
      (p.sync = s.server.globals.ssync ∧
          receiver = .checked (m.room.clients i) p.data.inputAccMs ⟨p.sync, s.server.round⟩ ∨
        p.sync ≠ s.server.globals.ssync ∧ receiver = .idle) ∧
      t = { s with
        server := { s.server with receiver := receiver }
        up := Function.update s.up i rest } := by
  cases hup : s.up i with
  | nil =>
    simp only [matchStep, hup] at h
    cases h
  | cons p rest =>
    simp only [matchStep, hup] at h
    obtain ⟨server, hserver, rfl⟩ := onServer_eq_some h
    have htype := hinput p (by rw [hup]; exact List.mem_cons_self)
    obtain ⟨htype', hsync'⟩ := packetReceived_header (m.client i) m.server htype garbage
    have hpos := packetFrame_length_pos (m.client i) htype
    obtain ⟨hidle, ⟨hres, -⟩ | ⟨hother, rfl⟩ | ⟨-, hsync, -, rfl⟩⟩ := roundStep_check hserver
    · omega
    · refine ⟨p, rest, .idle, rfl, hidle, Or.inr ⟨fun heq => ?_, rfl⟩, ?_⟩
      · exact hother ⟨hsync'.trans heq, htype'⟩
      · rw [← hidle]
    · refine ⟨p, rest, _, rfl, hidle, Or.inl ⟨hsync'.symm.trans hsync, rfl⟩, ?_⟩
      rw [packetReceived_input _ _ htype, hsync']

theorem matchStep_announce (h : matchStep m s .announce = some t) :
    ∃ k, (s.server.sender = .advanced (-1) ∧ k = .state ∨ s.server.sender = .scored ∧ k = .init) ∧
      t = { s with
        server := { s.server with
          sender := .idle
          sent := s.server.sent ++ [sendStatePacket k s.server.globals] }
        down := fun i => s.down i ++ [sendStatePacket k s.server.globals] } := by
  obtain ⟨server, hserver, hres⟩ := Option.bind_eq_some_iff.mp h
  cases hres
  obtain ⟨k, hk, rfl⟩ := roundStep_announce hserver
  refine ⟨k, hk, ?_⟩
  simp only [List.drop_left]

theorem matchStep_receive (h : matchStep m s (.receive i) = some t) :
    ∃ p rest client, s.down i = p :: rest ∧
      t = { s with
        clients := Function.update s.clients i (some client)
        down := Function.update s.down i rest } ∧
      match s.clients i with
      | none => ∃ args, clientMain (packetReceived m.server (m.client i) p Packet.zero)
          Packet.zero.data.state = some args ∧ client = .initial args
      | some old => clientStep old (.receive (packetFrame m.server p).length
          (packetReceived m.server (m.client i) p Packet.zero)) = some client := by
  cases hdown : s.down i with
  | nil =>
    simp only [matchStep, hdown] at h
    cases h
  | cons p rest =>
    cases hclient : s.clients i with
    | none =>
      simp only [matchStep, hdown, hclient] at h
      obtain ⟨args, hargs, rfl⟩ := Option.map_eq_some_iff.mp h
      exact ⟨p, rest, _, rfl, rfl, args, hargs, rfl⟩
    | some old =>
      simp only [matchStep, hdown, hclient] at h
      obtain ⟨old', client, hold, hstep, rfl⟩ := onClient_eq_some h
      cases hclient.symm.trans hold
      exact ⟨p, rest, client, rfl, rfl, hstep⟩

theorem matchStep_network (h : matchStep m s (.network i) = some t) :
    ∃ client, s.clients i = some client ∧
      t = { s with
        clients := Function.update s.clients i (some client.networked)
        up := Function.update s.up i (s.up i ++ [(networkUpdate client.args).1]) } := by
  obtain ⟨client, hclient, hrest⟩ := Option.bind_eq_some_iff.mp h
  obtain ⟨client', hstep, hres⟩ := Option.bind_eq_some_iff.mp hrest
  cases hres
  refine ⟨client, hclient, ?_⟩
  rw [clientStep_network hstep]
  simp only [ClientThreads.networked, List.drop_left, List.map_cons, List.map_nil]

end

section
variable {F : Type}

def updOf (upds : PlayerUpds F) (i : Fin 2) : GameObj F :=
  if i = 0 then upds.player1 else upds.player2

/-- How many `PACKET_INIT`s the server has sent to each client. -/
def RoundServer.announced (s : RoundServer F) : Nat :=
  match s.sender with
  | .scored => s.round
  | _ => s.round + 1

/-- The round whose field the client shows. -/
def ClientThreads.fieldRound (c : ClientThreads F) : Nat :=
  match c.receipt with
  | .replaced _ => c.round + 1
  | _ => c.round

theorem ClientThreads.round_le_fieldRound (c : ClientThreads F) : c.round ≤ c.fieldRound := by
  unfold ClientThreads.fieldRound
  split
  · exact Nat.le_succ _
  · exact le_rfl

/-- How many `PACKET_INIT`s a client has taken from its stream. -/
def seenBy : Option (ClientThreads F) → Nat
  | none => 0
  | some c => c.fieldRound + 1

variable [Field F]

/-- The stream to client `i`, which has taken `n` `PACKET_INIT`s from it, brings those from `n`
up to `k`, each with its sync and with the paddle of the client in the middle. -/
inductive Announces (ssync : I8) (i : Fin 2) : Nat → List (Packet F) → Nat → Prop
  | nil (n : Nat) : Announces ssync i n [] n
  | state {p : Packet F} {ps : List (Packet F)} {n k : Nat} (htype : p.type = CpongPacket.state.code)
      (hrest : Announces ssync i (n + 1) ps k) : Announces ssync i (n + 1) (p :: ps) k
  | init {p : Packet F} {ps : List (Packet F)} {n k : Nat} (htype : p.type = CpongPacket.init.code)
      (hsync : p.sync = ssync + BitVec.ofNat 8 n)
      (hplace : (playerOf p.data.state i).pos.y = 160)
      (hown : n = 0 → p.data.state.ownIdIndex = ownIndex i)
      (hrest : Announces ssync i (n + 1) ps k) : Announces ssync i n (p :: ps) k

/-- The server's sync counts its rounds, and a round begins with the paddles in the middle. -/
structure ServerCounts (room : Room) (ssync : I8) (s : RoundServer F) : Prop where
  ids : s.globals.state.playerIds = room.clients
  speed : ∀ i, (playerOf s.globals.state i).speed = 0.5
  updSpeed : ∀ upds, s.sender = .applied upds → ∀ i, (updOf upds i).speed = 0.5
  sync : s.globals.ssync = ssync + BitVec.ofNat 8 s.round
  begun : s.sender = .scored → s.round ≠ 0 ∧ ∀ i, (playerOf s.globals.state i).pos.y = 160

omit [Field F] in
/-- A client's sync counts the rounds that it has seen begin. -/
structure ClientCounts (ssync : I8) (i : Fin 2) (c : ClientThreads F) : Prop where
  sync : c.args.sync = ssync + BitVec.ofNat 8 c.round
  own : c.args.localState.ownIdIndex = ownIndex i
  next : ∀ sync, c.receipt = .replaced sync → sync = ssync + BitVec.ofNat 8 (c.round + 1)

/-- What holds of the rounds at any time of a match. -/
structure MatchInv (room : Room) (ssync : I8) (s : MatchThreads F) : Prop where
  server : ServerCounts room ssync s.server
  down : ∀ i, Announces ssync i (seenBy (s.clients i)) (s.down i) s.server.announced
  clients : ∀ i c, s.clients i = some c → ClientCounts ssync i c
  up : ∀ i, ∀ p ∈ s.up i, p.type = CpongPacket.input.code

variable {ssync : I8} {i : Fin 2} {ps : List (Packet F)} {p : Packet F} {n k : Nat}

theorem Announces.le (h : Announces ssync i n ps k) : n ≤ k := by
  induction h with
  | nil n => exact le_rfl
  | state htype hrest ih => exact ih
  | init htype hsync hplace hown hrest ih => exact (Nat.le_succ _).trans ih

theorem Announces.add_state (h : Announces ssync i n ps (k + 1))
    (htype : p.type = CpongPacket.state.code) : Announces ssync i n (ps ++ [p]) (k + 1) := by
  generalize hk : k + 1 = k' at h ⊢
  induction h with
  | nil n =>
    subst hk
    exact .state htype (.nil _)
  | state htype' hrest ih => exact .state htype' (ih hk)
  | init htype' hsync hplace hown hrest ih => exact .init htype' hsync hplace hown (ih hk)

theorem Announces.add_init (h : Announces ssync i n ps k) (hk : k ≠ 0)
    (htype : p.type = CpongPacket.init.code) (hsync : p.sync = ssync + BitVec.ofNat 8 k)
    (hplace : (playerOf p.data.state i).pos.y = 160) :
    Announces ssync i n (ps ++ [p]) (k + 1) := by
  induction h with
  | nil n => exact .init htype hsync hplace (fun hzero => absurd hzero hk) (.nil _)
  | state htype' hrest ih => exact .state htype' (ih hk hsync)
  | init htype' hsync' hplace' hown hrest ih => exact .init htype' hsync' hplace' hown (ih hk hsync)

/-- The next packet of the stream begins a round, or it belongs to one that has begun. -/
theorem Announces.cons (h : Announces ssync i n (p :: ps) k) :
    p.type = CpongPacket.state.code ∧ n ≠ 0 ∧ Announces ssync i n ps k ∨
      p.type = CpongPacket.init.code ∧ p.sync = ssync + BitVec.ofNat 8 n ∧
        (playerOf p.data.state i).pos.y = 160 ∧
        (n = 0 → p.data.state.ownIdIndex = ownIndex i) ∧ Announces ssync i (n + 1) ps k := by
  cases h with
  | state htype hrest => exact Or.inl ⟨htype, Nat.succ_ne_zero _, hrest⟩
  | init htype hsync hplace hown hrest => exact Or.inr ⟨htype, hsync, hplace, hown, hrest⟩

variable [LinearOrder F] [FloorRing F] [Libm F] {room : Room} {m : Match F}
  {s t : MatchThreads F} {server server' : RoundServer F} {c c' : ClientThreads F}

theorem playerOf_initGame (state : PongState F) (rands : Rands) (i : Fin 2) :
    (playerOf (initGame state rands) i).pos.y = 160 ∧
      (playerOf (initGame state rands) i).speed = 0.5 := by
  match i with
  | 0 =>
    refine ⟨?_, rfl⟩
    change (320 / 2 : F) = 160
    norm_num
  | 1 =>
    refine ⟨?_, rfl⟩
    change (320 / 2 : F) = 160
    norm_num

omit [LinearOrder F] [FloorRing F] [Libm F] in
theorem playerOf_sendStateInputs (g : Globals F) (i : Fin 2) :
    playerOf (sendStateInputs g).2.state i = steer (playerOf g.state i) (inputOf g i) ∧
      updOf (sendStateInputs g).1 i =
        linearMove (steer (playerOf g.state i) (inputOf g i)) (inputOf g i).abs.toInt := by
  match i with
  | 0 => exact ⟨rfl, rfl⟩
  | 1 => exact ⟨rfl, rfl⟩

omit [Field F] [LinearOrder F] [FloorRing F] [Libm F] in
theorem playerOf_moved (upds : PlayerUpds F) (ball : GameObj F) (g : Globals F) (i : Fin 2) :
    playerOf (moveObjects upds ball g).state i = updOf upds i := by
  match i with
  | 0 => rfl
  | 1 => rfl

/-- Where the server's thread has not come to the sync, the round is the same. -/
theorem ServerCounts.step {l : RoundSection F} (h : ServerCounts room ssync server)
    (hstep : roundStep server l = some server') :
    ServerCounts room ssync server' ∧ (l ≠ .announce → server'.announced = server.announced) := by
  cases l with
  | check id res packet =>
    obtain ⟨-, ⟨-, rfl⟩ | ⟨-, rfl⟩ | ⟨-, -, -, rfl⟩⟩ := roundStep_check hstep
    · exact ⟨⟨h.ids, h.speed, h.updSpeed, h.sync, h.begun⟩, fun _ => rfl⟩
    · exact ⟨h, fun _ => rfl⟩
    · exact ⟨⟨h.ids, h.speed, h.updSpeed, h.sync, h.begun⟩, fun _ => rfl⟩
  | accumulate =>
    obtain ⟨id, ms, tag, -, rfl⟩ := roundStep_accumulate hstep
    have hstate := onInputReadyAccumulate_state server.globals id ms
    have hsync := onInputReadyAccumulate_ssync server.globals id ms
    have hsender := server.credit_sender id ⟨tag, ms⟩
    have hround := server.credit_round id ⟨tag, ms⟩
    refine ⟨⟨?_, ?_, ?_, ?_, ?_⟩, fun _ => ?_⟩
    · exact (congrArg PongState.playerIds hstate).trans h.ids
    · intro i
      exact (congrArg (fun state => (playerOf state i).speed) hstate).trans (h.speed i)
    · intro upds hupds
      exact h.updSpeed upds (hsender.symm.trans hupds)
    · exact hsync.trans (h.sync.trans (by rw [hround]))
    · intro hscored
      obtain ⟨hpos, hplace⟩ := h.begun (hsender.symm.trans hscored)
      refine ⟨hround.trans_ne hpos, fun i => ?_⟩
      exact (congrArg (fun state => (playerOf state i).pos.y) hstate).trans (hplace i)
    · unfold RoundServer.announced
      simp only [hsender, hround]
  | inputs =>
    obtain ⟨hidle, rfl⟩ := roundStep_inputs hstep
    refine ⟨⟨h.ids, ?_, ?_, h.sync, ?_⟩, fun _ => ?_⟩
    · intro i
      dsimp only
      rw [(playerOf_sendStateInputs server.globals i).1]
      exact h.speed i
    · intro upds hupds i
      cases hupds
      rw [(playerOf_sendStateInputs server.globals i).2]
      exact h.speed i
    · intro hscored
      cases hscored
    · unfold RoundServer.announced
      rw [hidle]
  | advance tick =>
    obtain ⟨upds, ball, scoredIndex, happlied, -, rfl⟩ := roundStep_advance hstep
    refine ⟨⟨h.ids, ?_, ?_, h.sync, ?_⟩, fun _ => ?_⟩
    · intro i
      dsimp only
      rw [playerOf_moved]
      exact h.updSpeed upds happlied i
    · intro upds' hupds'
      cases hupds'
    · intro hscored
      cases hscored
    · unfold RoundServer.announced
      rw [happlied]
  | score rands =>
    obtain ⟨scoredIndex, j, hadvanced, -, rfl⟩ := roundStep_score hstep
    refine ⟨⟨h.ids, fun i => (playerOf_initGame _ rands i).2, ?_, ?_,
      fun _ => ⟨Nat.succ_ne_zero _, fun i => (playerOf_initGame _ rands i).1⟩⟩, fun _ => ?_⟩
    · intro upds hupds
      cases hupds
    · change server.globals.ssync + 1 = _
      rw [h.sync, add_assoc, BitVec.ofNat_add]
      rfl
    · unfold RoundServer.announced
      rw [hadvanced]
  | announce =>
    obtain ⟨k, -, rfl⟩ := roundStep_announce hstep
    refine ⟨⟨h.ids, h.speed, ?_, h.sync, ?_⟩, fun hne => absurd rfl hne⟩
    · intro upds hupds
      cases hupds
    · intro hscored
      cases hscored

/-- A section that takes nothing from the stream sees no round begin. -/
theorem ClientCounts.step {l : ClientSection F} (h : ClientCounts ssync i c)
    (hstep : clientStep c l = some c') (hl : ∀ res packet, l ≠ .receive res packet) :
    ClientCounts ssync i c' ∧ seenBy (some c') = seenBy (some c) := by
  cases l with
  | receive res packet => exact absurd rfl (hl res packet)
  | setSync =>
    obtain ⟨sync, hreplaced, rfl⟩ := clientStep_setSync hstep
    refine ⟨⟨h.next sync hreplaced, h.own, ?_⟩, ?_⟩
    · intro sync' hsync'
      cases hsync'
    · simp only [seenBy, ClientThreads.fieldRound, hreplaced]
  | zeroInput =>
    obtain ⟨stale, hsynced, rfl⟩ := clientStep_zeroInput hstep
    refine ⟨⟨h.sync, h.own, ?_⟩, ?_⟩
    · intro sync' hsync'
      cases hsync'
    · simp only [seenBy, ClientThreads.fieldRound, hsynced]
  | paddleInputs up down deltaTime =>
    obtain ⟨-, rfl⟩ := clientStep_paddleInputs hstep
    exact ⟨⟨h.sync, h.own, h.next⟩, rfl⟩
  | localState fuel =>
    obtain ⟨direction, deltaTime, localState, -, hlocal, rfl⟩ := clientStep_localState hstep
    obtain ⟨ball, rfl⟩ := updateLocalState_eq_some hlocal
    exact ⟨⟨h.sync, h.own, h.next⟩, rfl⟩
  | network =>
    rw [clientStep_network hstep]
    exact ⟨⟨h.sync, h.own, h.next⟩, rfl⟩

theorem MatchInv.onServer {l : RoundSection F} (h : MatchInv room ssync s)
    (hstep : onServer s l = some t) (hl : l ≠ .announce) : MatchInv room ssync t := by
  obtain ⟨server, hserver, rfl⟩ := onServer_eq_some hstep
  obtain ⟨hcounts, hannounced⟩ := h.server.step hserver
  refine ⟨hcounts, fun i => ?_, h.clients, h.up⟩
  dsimp only
  rw [hannounced hl]
  exact h.down i

omit [LinearOrder F] [FloorRing F] [Libm F] in
theorem MatchInv.update {j : Fin 2} (h : MatchInv room ssync s) (hclient : s.clients j = some c)
    (hc : ClientCounts ssync j c') (hseen : seenBy (some c') = seenBy (some c)) :
    MatchInv room ssync { s with clients := Function.update s.clients j (some c') } := by
  refine ⟨h.server, fun i => ?_, fun i c₁ hc₁ => ?_, h.up⟩
  · by_cases hj : j = i
    · subst hj
      simp only [Function.update_self]
      rw [hseen, ← hclient]
      exact h.down j
    · simp only [Function.update_of_ne (Ne.symm hj)]
      exact h.down i
  · by_cases hj : j = i
    · subst hj
      cases (Function.update_self j (some c') s.clients).symm.trans hc₁
      exact hc
    · exact h.clients i c₁ ((Function.update_of_ne (Ne.symm hj) ..).symm.trans hc₁)

theorem MatchInv.onClient {j : Fin 2} {l : ClientSection F} (h : MatchInv room ssync s)
    (hstep : onClient s j l = some t) (hl : ∀ res packet, l ≠ .receive res packet) :
    MatchInv room ssync t := by
  obtain ⟨client, client', hclient, hstep', rfl⟩ := onClient_eq_some hstep
  obtain ⟨hcounts, hseen⟩ := (h.clients j client hclient).step hstep' hl
  exact h.update hclient hcounts hseen

/-- What a client makes of the next packet of its stream. -/
inductive Taken (m : Match F) (i : Fin 2) (p : Packet F) :
    Option (ClientThreads F) → ClientThreads F → Prop
  | first (htype : p.type = CpongPacket.init.code) : Taken m i p none (.initial
      { localState :=
          { (packetReceived m.server (m.client i) p Packet.zero).data.state with score := 0 }
        serverState := Packet.zero.data.state
        sync := p.sync
        inputAccMs := 0 })
  | state {c : ClientThreads F} {args : ClientData F} (htype : p.type = CpongPacket.state.code)
      (hidle : c.receipt = .idle)
      (hargs : args = receiveState c.args
        (packetReceived m.server (m.client i) p Packet.zero).data.state) :
      Taken m i p (some c) { c with args := args }
  | init {c : ClientThreads F} {args : ClientData F} (htype : p.type = CpongPacket.init.code)
      (hidle : c.receipt = .idle)
      (hargs : args = replaceLocalState c.args
        (packetReceived m.server (m.client i) p Packet.zero).data.state) :
      Taken m i p (some c) { c with args := args, receipt := .replaced p.sync }

/-- No packet of the stream is ignored. -/
theorem MatchInv.taken (h : MatchInv room ssync s) (hstep : matchStep m s (.receive i) = some t) :
    ∃ p rest client, s.down i = p :: rest ∧ Taken m i p (s.clients i) client ∧
      t = { s with
        clients := Function.update s.clients i (some client)
        down := Function.update s.down i rest } := by
  obtain ⟨p, rest, client, hdown, rfl, hclient⟩ := matchStep_receive hstep
  refine ⟨p, rest, client, hdown, ?_, rfl⟩
  have hstream := h.down i
  rw [hdown] at hstream
  cases hold : s.clients i with
  | none =>
    simp only [hold] at hclient
    obtain ⟨args, hargs, rfl⟩ := hclient
    rw [hold] at hstream
    obtain ⟨-, hne, -⟩ | ⟨htype, -⟩ := hstream.cons
    · exact absurd rfl hne
    · obtain ⟨htype', hsync'⟩ := packetReceived_header m.server (m.client i) htype Packet.zero
      simp only [clientMain, htype', ne_eq, not_true_eq_false, if_false, Option.some.injEq,
        hsync'] at hargs
      rw [← hargs]
      exact .first htype
  | some old =>
    simp only [hold] at hclient
    obtain ⟨hidle, ⟨hother, -⟩ | ⟨htype', rfl⟩ | ⟨htype', rfl⟩⟩ := clientStep_receive hclient
    · obtain ⟨htype, -⟩ | ⟨htype, -⟩ := hstream.cons
      · have hpos := packetFrame_length_pos m.server htype
        obtain ⟨htype', -⟩ := packetReceived_header m.server (m.client i) htype Packet.zero
        exact absurd ⟨by omega, Or.inl htype'⟩ hother
      · have hpos := packetFrame_length_pos m.server htype
        obtain ⟨htype', -⟩ := packetReceived_header m.server (m.client i) htype Packet.zero
        exact absurd ⟨by omega, Or.inr htype'⟩ hother
    · obtain ⟨htype, -⟩ | ⟨htype, -⟩ := hstream.cons
      · exact .state htype hidle rfl
      · obtain ⟨hinit, -⟩ := packetReceived_header m.server (m.client i) htype Packet.zero
        rw [hinit] at htype'
        exact absurd htype' (by decide)
    · obtain ⟨htype, -⟩ | ⟨htype, -⟩ := hstream.cons
      · obtain ⟨hstate, -⟩ := packetReceived_header m.server (m.client i) htype Packet.zero
        rw [hstate] at htype'
        exact absurd htype' (by decide)
      · obtain ⟨-, hsync'⟩ := packetReceived_header m.server (m.client i) htype Packet.zero
        rw [hsync']
        exact .init htype hidle rfl

omit [Libm F] in
/-- What is left of the stream goes on from what the client has taken. -/
theorem Taken.counts {client : ClientThreads F} {old : Option (ClientThreads F)}
    (h : Taken m i p old client) (hold : ∀ c, old = some c → ClientCounts ssync i c)
    (hstream : Announces ssync i (seenBy old) (p :: ps) k) :
    ClientCounts ssync i client ∧ Announces ssync i (seenBy (some client)) ps k := by
  obtain ⟨hstate, hne, hrest⟩ | ⟨hinit, hsync, hplace, hown, hrest⟩ := hstream.cons
  · cases h with
    | first htype => exact absurd rfl hne
    | @state c args htype hidle hargs =>
      have hc := hold c rfl
      subst hargs
      refine ⟨⟨hc.sync, ?_, hc.next⟩, hrest⟩
      have hown := hc.own
      simp only [receiveState, serverSnap]
      split_ifs <;> exact hown
    | init htype hidle hargs =>
      rw [hstate] at htype
      exact absurd htype (by decide)
  · cases h with
    | first htype =>
      refine ⟨⟨hsync, ?_, ?_⟩, hrest⟩
      · obtain ⟨-, hown', -⟩ := packetReceived_init m.server (m.client i) htype Packet.zero
        exact hown'.trans (hown rfl)
      · intro sync hreplaced
        cases hreplaced
    | state htype hidle hargs =>
      rw [hinit] at htype
      exact absurd htype (by decide)
    | @init c args htype hidle hargs =>
      have hc := hold c rfl
      subst hargs
      have hseen : seenBy (some c) = c.round + 1 := by
        simp only [seenBy, ClientThreads.fieldRound, hidle]
      rw [hseen] at hsync hrest
      refine ⟨⟨hc.sync, hc.own, ?_⟩, hrest⟩
      intro sync hreplaced
      cases hreplaced
      exact hsync

theorem MatchInv.step {l : MatchSection F} (h : MatchInv m.room ssync s)
    (hstep : matchStep m s l = some t) : MatchInv m.room ssync t := by
  cases l with
  | check j garbage =>
    obtain ⟨p, rest, receiver, hup, -, -, rfl⟩ := matchStep_check hstep (h.up j)
    refine ⟨⟨h.server.ids, h.server.speed, h.server.updSpeed, h.server.sync, h.server.begun⟩,
      h.down, h.clients, fun i q hq => ?_⟩
    by_cases hj : j = i
    · subst hj
      simp only [Function.update_self] at hq
      exact h.up j q (by rw [hup]; exact List.mem_cons_of_mem _ hq)
    · simp only [Function.update_of_ne (Ne.symm hj)] at hq
      exact h.up i q hq
  | accumulate => exact h.onServer hstep (by simp)
  | inputs => exact h.onServer hstep (by simp)
  | advance tick => exact h.onServer hstep (by simp)
  | score rands => exact h.onServer hstep (by simp)
  | announce =>
    obtain ⟨k, hk, rfl⟩ := matchStep_announce hstep
    refine ⟨⟨h.server.ids, h.server.speed, ?_, h.server.sync, ?_⟩, fun i => ?_, h.clients, h.up⟩
    · intro upds hupds
      cases hupds
    · intro hscored
      cases hscored
    · have hstream := h.down i
      change Announces ssync i (seenBy (s.clients i)) _ (s.server.round + 1)
      rcases hk with ⟨hadvanced, rfl⟩ | ⟨hscored, rfl⟩
      · have hsame : s.server.announced = s.server.round + 1 := by
          simp only [RoundServer.announced, hadvanced]
        rw [hsame] at hstream
        exact hstream.add_state rfl
      · have hsame : s.server.announced = s.server.round := by
          simp only [RoundServer.announced, hscored]
        rw [hsame] at hstream
        obtain ⟨hpos, hplace⟩ := h.server.begun hscored
        exact hstream.add_init hpos rfl h.server.sync (hplace i)
  | receive j =>
    obtain ⟨p, rest, client, hdown, htaken, rfl⟩ := h.taken hstep
    have hstream := h.down j
    rw [hdown] at hstream
    obtain ⟨hcounts, hrest⟩ := htaken.counts (h.clients j) hstream
    refine ⟨h.server, fun i => ?_, fun i c hc => ?_, h.up⟩
    · by_cases hj : j = i
      · subst hj
        simp only [Function.update_self]
        exact hrest
      · simp only [Function.update_of_ne (Ne.symm hj)]
        exact h.down i
    · by_cases hj : j = i
      · subst hj
        cases (Function.update_self j (some client) s.clients).symm.trans hc
        exact hcounts
      · exact h.clients i c ((Function.update_of_ne (Ne.symm hj) ..).symm.trans hc)
  | setSync j => exact h.onClient hstep (by simp)
  | zeroInput j => exact h.onClient hstep (by simp)
  | paddleInputs j up down deltaTime => exact h.onClient hstep (by simp)
  | localState j fuel => exact h.onClient hstep (by simp)
  | network j =>
    obtain ⟨client, hclient, rfl⟩ := matchStep_network hstep
    have hold := h.clients j client hclient
    have hcounts : ClientCounts ssync j client.networked := ⟨hold.sync, hold.own, hold.next⟩
    have hnext := h.update hclient hcounts rfl
    refine ⟨hnext.server, hnext.down, hnext.clients, fun i q hq => ?_⟩
    by_cases hj : j = i
    · subst hj
      simp only [Function.update_self] at hq
      rcases List.mem_append.mp hq with hq | hq
      · exact h.up j q hq
      · rw [List.mem_singleton.mp hq]
        rfl
    · simp only [Function.update_of_ne (Ne.symm hj)] at hq
      exact h.up i q hq

theorem MatchInv.start (rands : Rands) (g : Globals F) :
    MatchInv m.room g.ssync (matchBegin m rands g) := by
  have hsync : g.ssync = g.ssync + BitVec.ofNat 8 0 := (BitVec.add_zero _).symm
  refine ⟨⟨rfl, fun i => (playerOf_initGame _ rands i).2, ?_, hsync, ?_⟩, fun i => ?_, ?_, ?_⟩
  · intro upds hupds
    cases hupds
  · intro hscored
    cases hscored
  · have hplace := (playerOf_initGame
      { g.state with playerIds := m.room.clients, score := 0 } rands i).1
    refine .init rfl hsync ?_ (fun _ => rfl) (.nil 1)
    match i with
    | 0 => exact hplace
    | 1 => exact hplace
  · intro i c hc
    cases hc
  · intro i p hp
    cases hp

theorem MatchInv.of_run {rands : Rands} {g : Globals F} {ls : List (MatchSection F)}
    (h : System.run (matchStep m) (matchBegin m rands g) ls = some s) :
    MatchInv m.room g.ssync s :=
  System.invariant (fun _ _ _ hs hstep => hs.step hstep) (.start rands g) h

end

end CPong
