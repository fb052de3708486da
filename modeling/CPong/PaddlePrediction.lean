import CPong.RoundAgreement

/-!
# Own-paddle prediction

Within a round the paddle that a client shows is the server's paddle moved by the input
that the server has not yet applied, wherever that input is.
-/

namespace CPong

set_option autoImplicit false

open Lib

section
variable {F : Type}

def playerOf (state : PongState F) (i : Fin 2) : GameObj F :=
  if i = 0 then state.player1 else state.player2

/-- The paddle that a client moves by its own keys. -/
def ownPlayer (state : PongState F) : GameObj F :=
  if 0 = state.ownIdIndex then state.player1 else state.player2

def inputOf (g : Globals F) (i : Fin 2) : I32 := if i = 0 then g.input1 else g.input2

def inFlight (up : List (Packet F)) : Int := (up.map fun p => p.data.inputAccMs.toInt).sum

def InInt32 (n : Int) : Prop := -2 ^ 31 ≤ n ∧ n < 2 ^ 31

def gathered (i : Fin 2) (l : RoomStep F) : Int :=
  match l with
  | .frame j up down deltaTime _ => if j = i then inputDirection up down * deltaTime.toInt else 0
  | _ => 0

variable [Field F] [LinearOrder F] [FloorRing F] [Libm F]

/-- The step belongs to a round that goes on: the tick does not score, the message that client
`i` processes is a `PACKET_STATE`, and no sum of its input leaves the range of an `int`. -/
def WithinRound (i : Fin 2) (s : RoomState F) (l : RoomStep F) : Prop :=
  match l with
  | .tick tick => inputOf s.server i ≠ BitVec.intMin 32 ∧
      ∀ r ∈ sendState tick s.server, r.1.type = CpongPacket.state.code
  | .input j _ => j = i → ∀ p ∈ (s.up i).head?,
      InInt32 ((inputOf s.server i).toInt + p.data.inputAccMs.toInt)
  | .receive j => j = i → ∀ message ∈ s.sent[s.processed i]?, message.IsState
  | .frame j up down deltaTime _ => j = i → 0 ≤ deltaTime.toInt ∧ ∀ args ∈ s.clients i,
      InInt32 (args.inputAccMs.toInt + inputDirection up down * deltaTime.toInt)
  | .network _ => True

/-- Client `i` has nothing pending and shows its paddle where the server has it. -/
structure Settled (i : Fin 2) (s : RoomState F) (args : ClientData F) : Prop where
  client : s.clients i = some args
  sync : args.sync = s.server.ssync
  own : (ownPlayer args.localState).pos.y = (playerOf s.server.state i).pos.y
  gathered : args.inputAccMs = 0
  sent : s.up i = []
  received : inputOf s.server i = 0

/-- Where the server will have the paddle of player `i` when it has applied all its input. -/
def predictedY (i : Fin 2) (s : RoomState F) (args : ClientData F) : F :=
  (playerOf s.server.state i).pos.y +
    0.5 * ((args.inputAccMs.toInt + inFlight (s.up i) + (inputOf s.server i).toInt : Int) : F)

/-- What holds of client `i` at any time of the round. -/
structure Predicts (i : Fin 2) (s : RoomState F) (args : ClientData F) : Prop where
  client : s.clients i = some args
  sync : args.sync = s.server.ssync
  sent : ∀ p ∈ s.up i, p.type = CpongPacket.input.code ∧ p.sync = s.server.ssync
  own : (ownPlayer args.localState).pos.y = predictedY i s args

section Accumulators

omit [Field F] [LinearOrder F] [FloorRing F] [Libm F] in
theorem toInt_add_of_inInt32 {x y : I32} (h : InInt32 (x.toInt + y.toInt)) :
    (x + y).toInt = x.toInt + y.toInt := by
  obtain ⟨hlo, hhi⟩ := h
  rw [BitVec.toInt_add]
  apply Int.bmod_eq_of_le
  · omega
  · omega

theorem direction_mul_abs {acc : I32} (h : acc ≠ BitVec.intMin 32) :
    getInputAccDirection acc * acc.abs.toInt = acc.toInt := by
  rw [BitVec.toInt_abs_eq_natAbs_of_ne_intMin h]
  unfold getInputAccDirection
  split_ifs with hpos hzero <;> omega

omit [LinearOrder F] [FloorRing F] [Libm F] in
theorem steer_linearMove {player : GameObj F} {acc : I32} (hspeed : player.speed = 0.5)
    (h : acc ≠ BitVec.intMin 32) :
    (linearMove (steer player acc) acc.abs.toInt).pos.y =
      player.pos.y + 0.5 * (acc.toInt : F) := by
  rw [linearMove_pos_y, ← direction_mul_abs h, Int.cast_mul, ← mul_assoc]
  simp only [steer, hspeed]

end Accumulators

variable {m : Match F} {s t : RoomState F} {i : Fin 2} {args : ClientData F}

def Speeds (s : RoomState F) : Prop :=
  s.server.state.player1.speed = 0.5 ∧ s.server.state.player2.speed = 0.5

theorem Speeds.step (l : RoomStep F) (hs : Speeds s) (h : roomStep m s l = some t) : Speeds t := by
  cases l with
  | tick tick =>
    obtain ⟨packet, g, htick, rfl⟩ := roomStep_tick h
    obtain ⟨scoredIndex, ball, -, ⟨-, rfl, -⟩ | ⟨j, -, rfl, -⟩⟩ := sendState_cases htick
    · exact hs
    · exact ⟨rfl, rfl⟩
  | input j garbage =>
    obtain ⟨p, rest, -, rfl⟩ := roomStep_input h
    unfold Speeds serverReceive
    rw [onInputReady_state]
    exact hs
  | receive j =>
    obtain ⟨message, args, -, -, rfl⟩ := roomStep_receive h
    exact hs
  | frame j up down deltaTime fuel =>
    obtain ⟨args, args', -, -, rfl⟩ := roomStep_frame h
    exact hs
  | network j =>
    obtain ⟨args, -, rfl⟩ := roomStep_network h
    exact hs

omit [LinearOrder F] [FloorRing F] [Libm F] in
theorem playerOf_moveObjects (g : Globals F) (ball : GameObj F) (i : Fin 2) :
    playerOf (moveObjects (sendStateInputs g).1 ball (sendStateInputs g).2).state i =
      linearMove (steer (playerOf g.state i) (inputOf g i)) (inputOf g i).abs.toInt := by
  by_cases hi : i = 0
  · simp only [playerOf, inputOf, if_pos hi]
    rfl
  · simp only [playerOf, inputOf, if_neg hi]
    rfl

theorem sendState_moves {tick : Tick} {packet : Packet F} {g g' : Globals F}
    (hspeed : (playerOf g.state i).speed = 0.5) (hinput : inputOf g i ≠ BitVec.intMin 32)
    (h : sendState tick g = some (packet, g')) (hstate : packet.type = CpongPacket.state.code) :
    (playerOf g'.state i).pos.y = (playerOf g.state i).pos.y + 0.5 * ((inputOf g i).toInt : F) ∧
      inputOf g' i = 0 ∧ g'.ssync = g.ssync := by
  obtain ⟨scoredIndex, ball, -, ⟨-, rfl, -⟩ | ⟨j, -, rfl, rfl⟩⟩ := sendState_cases h
  · refine ⟨?_, ?_, rfl⟩
    · rw [playerOf_moveObjects, steer_linearMove hspeed hinput]
    · by_cases hi : i = 0
      · simp only [inputOf, if_pos hi]
        rfl
      · simp only [inputOf, if_neg hi]
        rfl
  · change CpongPacket.init.code = CpongPacket.state.code at hstate
    exact absurd hstate (by decide)

omit [Field F] [LinearOrder F] [FloorRing F] [Libm F] in
theorem onInputReady_accepted {room : Room} (hdistinct : room.clients 0 ≠ room.clients 1)
    {g : Globals F} (hids : g.state.playerIds = room.clients) {res : Int} (hres : res ≠ 0)
    {packet : Packet F} (hsync : packet.sync = g.ssync)
    (htype : packet.type = CpongPacket.input.code) (i : Fin 2) :
    inputOf (onInputReady g (room.clients i) res packet).2 i =
      inputOf g i + packet.data.inputAccMs := by
  unfold onInputReady onInputReadyAccumulate
  rw [if_neg hres, if_neg (not_not.mpr hsync), if_neg (not_not.mpr htype), hids]
  match i with
  | 0 =>
    rw [if_pos rfl]
    rfl
  | 1 =>
    rw [if_neg hdistinct, if_pos rfl]
    rfl

omit [Field F] [LinearOrder F] [FloorRing F] [Libm F] in
theorem onInputReady_other {room : Room} (hdistinct : room.clients 0 ≠ room.clients 1)
    {g : Globals F} (hids : g.state.playerIds = room.clients) {i j : Fin 2} (hj : j ≠ i)
    (res : Int) (packet : Packet F) :
    inputOf (onInputReady g (room.clients j) res packet).2 i = inputOf g i := by
  unfold onInputReady onInputReadyAccumulate
  rw [hids]
  match i, j, hj with
  | 0, 0, hj => exact absurd rfl hj
  | 1, 1, hj => exact absurd rfl hj
  | 0, 1, _ =>
    rw [if_neg hdistinct, if_pos rfl]
    split_ifs <;> rfl
  | 1, 0, _ =>
    rw [if_pos rfl]
    split_ifs <;> rfl

section Steps

structure InMatch (m : Match F) (s : RoomState F) : Prop where
  distinct : m.room.clients 0 ≠ m.room.clients 1
  server : ServerAgrees m s
  clients : ∀ i, ClientAgrees m s i
  speeds : Speeds s

theorem InMatch.step (l : RoomStep F) (hs : InMatch m s) (h : roomStep m s l = some t) :
    InMatch m t :=
  ⟨hs.distinct, hs.server.step l h, ClientAgrees.step l hs.server hs.clients h,
    hs.speeds.step l h⟩

omit [LinearOrder F] [FloorRing F] [Libm F] in
theorem InMatch.own (hs : InMatch m s) (hclient : s.clients i = some args) :
    args.localState.ownIdIndex = ownIndex i := by
  have hagrees := hs.clients i
  unfold ClientAgrees at hagrees
  cases hk : s.processed i with
  | zero =>
    simp only [hk, hclient] at hagrees
    cases hagrees
  | succ k =>
    simp only [hk, hclient] at hagrees
    obtain ⟨_, message, heq, -, hag⟩ := hagrees
    cases heq
    exact hag.own

omit [LinearOrder F] [FloorRing F] [Libm F] in
theorem InMatch.speed (hs : InMatch m s) (i : Fin 2) : (playerOf s.server.state i).speed = 0.5 := by
  unfold playerOf
  by_cases hi : i = 0
  · rw [if_pos hi]
    exact hs.speeds.1
  · rw [if_neg hi]
    exact hs.speeds.2

/-- After the step client `i` still predicts its paddle, and the prediction has moved by the
input that the step gathered. -/
def PredictsAfter (i : Fin 2) (s : RoomState F) (args : ClientData F) (l : RoomStep F)
    (t : RoomState F) : Prop :=
  ∃ args', Predicts i t args' ∧
    predictedY i t args' = predictedY i s args + 0.5 * (gathered i l : F)

omit [LinearOrder F] [FloorRing F] [Libm F] in
theorem PredictsAfter.of_idle {l : RoomStep F} {args' : ClientData F} (hp : Predicts i t args')
    (hsame : predictedY i t args' = predictedY i s args) (hl : gathered i l = 0) :
    PredictsAfter i s args l t := by
  refine ⟨args', hp, ?_⟩
  rw [hsame, hl, Int.cast_zero, mul_zero, add_zero]

theorem Predicts.tick {tick : Tick} (hm : InMatch m s) (hp : Predicts i s args)
    (hw : WithinRound i s (.tick tick)) (h : roomStep m s (.tick tick) = some t) :
    PredictsAfter i s args (.tick tick) t := by
  obtain ⟨hmin, hstate⟩ := hw
  obtain ⟨packet, g, htick, rfl⟩ := roomStep_tick h
  obtain ⟨hy, hzero, hsync⟩ := sendState_moves (hm.speed i) hmin htick (hstate (packet, g) htick)
  have hsame : predictedY i { s with
      server := g
      sent := s.sent ++ [⟨fun _ => packet, g.ssync, g.state.score⟩] } args =
      predictedY i s args := by
    unfold predictedY
    rw [hy, hzero]
    push_cast
    ring
  refine .of_idle ⟨hp.client, hp.sync.trans hsync.symm, ?_, hp.own.trans hsame.symm⟩ hsame rfl
  intro p hin
  rw [hsync]
  exact hp.sent p hin

theorem Predicts.input {j : Fin 2} {garbage : Packet F} (hm : InMatch m s)
    (hp : Predicts i s args) (hw : WithinRound i s (.input j garbage))
    (h : roomStep m s (.input j garbage) = some t) :
    PredictsAfter i s args (.input j garbage) t := by
  obtain ⟨p, rest, hup, rfl⟩ := roomStep_input h
  have hstate : (serverReceive m j p garbage s.server).state = s.server.state :=
    onInputReady_state _ _ _ _
  have hssync : (serverReceive m j p garbage s.server).ssync = s.server.ssync :=
    onInputReady_ssync _ _ _ _
  by_cases hj : j = i
  · subst hj
    obtain ⟨htype, hsync⟩ := hp.sent p (by rw [hup]; exact List.mem_cons_self)
    obtain ⟨htype', hsync'⟩ := packetReceived_header (m.client j) m.server htype garbage
    have hres : ((packetFrame (m.client j) p).length : Int) ≠ 0 := by
      have hpos := packetFrame_length_pos (m.client j) htype
      omega
    have hinput : (inputOf (serverReceive m j p garbage s.server) j).toInt =
        (inputOf s.server j).toInt + p.data.inputAccMs.toInt := by
      rw [serverReceive, onInputReady_accepted hm.distinct hm.server.ids hres
        (hsync'.trans hsync) htype', packetReceived_input _ _ htype]
      exact toInt_add_of_inInt32 (hw rfl p (by rw [hup]; rfl))
    have hsame : predictedY j { s with
        server := serverReceive m j p garbage s.server
        up := Function.update s.up j rest } args = predictedY j s args := by
      unfold predictedY
      simp only [hstate, hinput, hup, Function.update_self, inFlight, List.map_cons, List.sum_cons]
      push_cast
      ring
    refine .of_idle ⟨hp.client, hp.sync.trans hssync.symm, ?_, hp.own.trans hsame.symm⟩ hsame rfl
    intro q hq
    simp only [Function.update_self] at hq
    rw [hssync]
    exact hp.sent q (by rw [hup]; exact List.mem_cons_of_mem _ hq)
  · have hinput : inputOf (serverReceive m j p garbage s.server) i = inputOf s.server i :=
      onInputReady_other hm.distinct hm.server.ids hj _ _
    have hij : i ≠ j := fun heq => hj heq.symm
    have hsame : predictedY i { s with
        server := serverReceive m j p garbage s.server
        up := Function.update s.up j rest } args = predictedY i s args := by
      unfold predictedY
      simp only [hstate, hinput, Function.update_of_ne hij]
    refine .of_idle ⟨hp.client, hp.sync.trans hssync.symm, ?_, hp.own.trans hsame.symm⟩ hsame rfl
    intro q hq
    simp only [Function.update_of_ne hij] at hq
    rw [hssync]
    exact hp.sent q hq

omit [Field F] [LinearOrder F] [FloorRing F] [Libm F] in
theorem ownPlayer_serverSnap (localState server : PongState F) :
    ownPlayer (serverSnap localState server) = ownPlayer localState := by
  unfold ownPlayer serverSnap
  by_cases hown : localState.ownIdIndex = 0
  · simp only [hown, ne_eq, not_true_eq_false, if_false, if_true]
  · have hown' : 0 ≠ localState.ownIdIndex := fun heq => hown heq.symm
    simp only [hown, hown', ne_eq, not_false_eq_true, if_true, if_false]

theorem Predicts.receive {j : Fin 2} (hp : Predicts i s args)
    (hw : WithinRound i s (.receive j)) (h : roomStep m s (.receive j) = some t) :
    PredictsAfter i s args (.receive j) t := by
  obtain ⟨message, got, hmessage, hgot, rfl⟩ := roomStep_receive h
  by_cases hj : j = i
  · subst hj
    have hstate := hw rfl message hmessage j
    obtain ⟨server, hserver⟩ := clientReceive_state m j args hstate
    rw [hp.client, hserver] at hgot
    cases hgot
    have hsnap : ownPlayer (receiveState args server).localState = ownPlayer args.localState :=
      ownPlayer_serverSnap _ _
    have hown : (ownPlayer (receiveState args server).localState).pos.y = predictedY j s args := by
      rw [hsnap]
      exact hp.own
    exact .of_idle ⟨Function.update_self .., hp.sync, hp.sent, hown⟩ rfl rfl
  · refine .of_idle ⟨?_, hp.sync, hp.sent, hp.own⟩ rfl rfl
    exact (Function.update_of_ne (Ne.symm hj) ..).trans hp.client

/-- A frame moves the own paddle by the input that it gathers. -/
theorem updateLocalState_own {fuel : Nat} {localState st : PongState F}
    {deltaTime inputDirection : Int}
    (h : updateLocalState fuel localState deltaTime inputDirection = some st) :
    (ownPlayer st).pos.y =
      (ownPlayer localState).pos.y + 0.5 * ((inputDirection * deltaTime : Int) : F) := by
  obtain ⟨ball, rfl⟩ := updateLocalState_eq_some h
  unfold ownPlayer
  by_cases hown : 0 = localState.ownIdIndex
  · simp only [if_pos hown, linearMove_pos_y, steerOwn]
    push_cast
    ring
  · simp only [if_neg hown, linearMove_pos_y, steerOwn]
    push_cast
    ring

theorem inputDirection_cases (up down : Bool) :
    inputDirection up down = -1 ∨ inputDirection up down = 0 ∨ inputDirection up down = 1 := by
  cases up <;> cases down <;> decide

theorem toInt_inputDirection_mul (up down : Bool) {deltaTime : I32} (h : 0 ≤ deltaTime.toInt) :
    (BitVec.ofInt 32 (inputDirection up down) * deltaTime).toInt =
      inputDirection up down * deltaTime.toInt := by
  have hlt := BitVec.toInt_lt (x := deltaTime)
  have hd : (BitVec.ofInt 32 (inputDirection up down)).toInt = inputDirection up down := by
    rcases inputDirection_cases up down with hd | hd | hd <;> rw [hd] <;> rfl
  rw [BitVec.toInt_mul, hd]
  apply Int.bmod_eq_of_le
  · rcases inputDirection_cases up down with hd | hd | hd <;> rw [hd] <;> omega
  · rcases inputDirection_cases up down with hd | hd | hd <;> rw [hd] <;> omega

theorem Predicts.frame {j : Fin 2} {up down : Bool} {deltaTime : I32} {fuel : Nat}
    (hp : Predicts i s args) (hw : WithinRound i s (.frame j up down deltaTime fuel))
    (h : roomStep m s (.frame j up down deltaTime fuel) = some t) :
    PredictsAfter i s args (.frame j up down deltaTime fuel) t := by
  obtain ⟨old, args', hold, hupdate, rfl⟩ := roomStep_frame h
  by_cases hj : j = i
  · subst hj
    cases hp.client.symm.trans hold
    obtain ⟨hpos, hrange⟩ := hw rfl
    obtain ⟨localState, hlocal, rfl⟩ := update_eq_some hupdate
    have hacc : (args.inputAccMs + BitVec.ofInt 32 (inputDirection up down) * deltaTime).toInt =
        args.inputAccMs.toInt + inputDirection up down * deltaTime.toInt := by
      rw [← toInt_inputDirection_mul up down hpos]
      apply toInt_add_of_inInt32
      rw [toInt_inputDirection_mul up down hpos]
      exact hrange args hp.client
    have hmoved : predictedY j { s with
        clients := Function.update s.clients j (some { args with
          inputAccMs := args.inputAccMs + BitVec.ofInt 32 (inputDirection up down) * deltaTime
          localState := localState }) }
        { args with
          inputAccMs := args.inputAccMs + BitVec.ofInt 32 (inputDirection up down) * deltaTime
          localState := localState } =
        predictedY j s args + 0.5 * ((inputDirection up down * deltaTime.toInt : Int) : F) := by
      unfold predictedY
      rw [hacc]
      push_cast
      ring
    refine ⟨_, ⟨Function.update_self .., hp.sync, hp.sent, ?_⟩, ?_⟩
    · rw [hmoved, ← hp.own]
      exact updateLocalState_own hlocal
    · rw [hmoved]
      simp only [gathered, if_true]
  · refine .of_idle ⟨?_, hp.sync, hp.sent, hp.own⟩ rfl (if_neg hj)
    exact (Function.update_of_ne (Ne.symm hj) ..).trans hp.client

theorem Predicts.network {j : Fin 2} (hp : Predicts i s args)
    (h : roomStep m s (.network j) = some t) : PredictsAfter i s args (.network j) t := by
  obtain ⟨old, hold, rfl⟩ := roomStep_network h
  by_cases hj : j = i
  · subst hj
    cases hp.client.symm.trans hold
    have hsent : inFlight (s.up j ++ [(networkUpdate args).1]) =
        inFlight (s.up j) + args.inputAccMs.toInt := by
      simp only [inFlight, List.map_append, List.sum_append, List.map_cons, List.map_nil,
        List.sum_singleton]
      rfl
    have hsame : predictedY j { s with
        clients := Function.update s.clients j (some (networkUpdate args).2)
        up := Function.update s.up j (s.up j ++ [(networkUpdate args).1]) }
        (networkUpdate args).2 = predictedY j s args := by
      unfold predictedY
      simp only [Function.update_self, hsent]
      simp only [networkUpdate]
      push_cast
      ring
    refine .of_idle ⟨Function.update_self .., hp.sync, ?_, hp.own.trans hsame.symm⟩ hsame rfl
    intro p hin
    simp only [Function.update_self] at hin
    rcases List.mem_append.mp hin with hin | hin
    · exact hp.sent p hin
    · rw [List.mem_singleton.mp hin]
      exact ⟨rfl, hp.sync⟩
  · have hij : i ≠ j := Ne.symm hj
    have hsame : predictedY i { s with
        clients := Function.update s.clients j (some (networkUpdate old).2)
        up := Function.update s.up j (s.up j ++ [(networkUpdate old).1]) } args =
        predictedY i s args := by
      simp only [predictedY, Function.update_of_ne hij]
    refine .of_idle ⟨?_, hp.sync, ?_, hp.own.trans hsame.symm⟩ hsame rfl
    · simp only [Function.update_of_ne hij]
      exact hp.client
    · simp only [Function.update_of_ne hij]
      exact hp.sent

theorem Predicts.step (l : RoomStep F) (hm : InMatch m s) (hp : Predicts i s args)
    (hw : WithinRound i s l) (h : roomStep m s l = some t) : PredictsAfter i s args l t := by
  cases l with
  | tick tick => exact hp.tick hm hw h
  | input j garbage => exact hp.input hm hw h
  | receive j => exact hp.receive hw h
  | frame j up down deltaTime fuel => exact hp.frame hw h
  | network j => exact hp.network h

end Steps

section WholeRound

theorem Predicts.run {ls : List (RoomStep F)} (hm : InMatch m s) (hp : Predicts i s args)
    (hC : System.AllSteps (roomStep m) (WithinRound i) s ls)
    (h : System.run (roomStep m) s ls = some t) :
    ∃ args', Predicts i t args' ∧
      predictedY i t args' = predictedY i s args + 0.5 * (((ls.map (gathered i)).sum : Int) : F) := by
  induction ls generalizing s args with
  | nil =>
    cases h
    refine ⟨args, hp, ?_⟩
    simp
  | cons l ls ih =>
    obtain ⟨u, hu, hrest⟩ := System.run_cons_eq_some.mp h
    obtain ⟨mid, hmid, hy⟩ := hp.step l hm hC.1 hu
    obtain ⟨args', hargs', hy'⟩ := ih (hm.step l hu) hmid (hC.2 u hu) hrest
    refine ⟨args', hargs', ?_⟩
    rw [hy', hy, List.map_cons, List.sum_cons]
    push_cast
    ring

/-- From a settled state of a match on, and as long as its round lasts, the paddle that client
`i` shows is the server's paddle moved by the input on its way; and where the paddle ends
depends on the sum of the input alone. -/
theorem paddle_prediction (hdistinct : m.room.clients 0 ≠ m.room.clients 1) {rands : Rands}
    {g : Globals F} {ls₀ ls : List (RoomStep F)}
    (hstart : System.run (roomStep m) (roomStart m rands g) ls₀ = some s)
    (hsettled : Settled i s args)
    (hC : System.AllSteps (roomStep m) (WithinRound i) s ls)
    (h : System.run (roomStep m) s ls = some t) :
    ∃ args', t.clients i = some args' ∧
      (ownPlayer args'.localState).pos.y = (playerOf t.server.state i).pos.y +
        0.5 * ((args'.inputAccMs.toInt + inFlight (t.up i) + (inputOf t.server i).toInt : Int) : F) ∧
      (ownPlayer args'.localState).pos.y = (playerOf s.server.state i).pos.y +
        0.5 * (((ls.map (gathered i)).sum : Int) : F) := by
  have hinv := RoundInv.of_run hstart
  have hspeeds : Speeds s :=
    System.invariant (fun _ l _ hs hstep => Speeds.step l hs hstep) ⟨rfl, rfl⟩ hstart
  have hm : InMatch m s := ⟨hdistinct, hinv.server, hinv.clients, hspeeds⟩
  have hy : predictedY i s args = (playerOf s.server.state i).pos.y := by
    unfold predictedY
    rw [hsettled.gathered, hsettled.sent, hsettled.received]
    simp [inFlight]
  have hp : Predicts i s args := by
    refine ⟨hsettled.client, hsettled.sync, ?_, hsettled.own.trans hy.symm⟩
    intro p hin
    rw [hsettled.sent] at hin
    cases hin
  obtain ⟨args', hargs', hmoved⟩ := hp.run hm hC h
  refine ⟨args', hargs'.client, hargs'.own, ?_⟩
  rw [hargs'.own, hmoved, hy]

instance (n : Int) : Decidable (InInt32 n) := inferInstanceAs (Decidable (_ ∧ _))

omit [Field F] [LinearOrder F] [FloorRing F] [Libm F] in
instance (message : Message F) : Decidable message.IsState :=
  inferInstanceAs (Decidable (∀ _, _))

instance (i : Fin 2) (s : RoomState F) (l : RoomStep F) : Decidable (WithinRound i s l) :=
  match l with
  | .tick tick => inferInstanceAs (Decidable (_ ∧ ∀ r ∈ sendState tick s.server, _))
  | .input .. => inferInstanceAs (Decidable (_ → ∀ p ∈ (s.up i).head?, _))
  | .receive _ => inferInstanceAs (Decidable (_ → ∀ message ∈ s.sent[s.processed i]?, _))
  | .frame .. => inferInstanceAs (Decidable (_ → _ ∧ ∀ args ∈ s.clients i, _))
  | .network _ => isTrue trivial

end WholeRound

end

def joined : RoomState ℚ :=
  (System.run (roomStep mixedMatch) (roomStart mixedMatch ⟨0, 1, 1⟩ .zero) [.receive 1]).get
    (by decide +kernel)

def joinedArgs : ClientData ℚ := (joined.clients 1).get (by decide +kernel)

/-- The second client holds a key for two frames; the first of them reaches the server. -/
def twoFrames : List (RoomStep ℚ) :=
  [.frame 1 false true 16 1, .network 1, .tick ⟨16, 1, 0, ⟨0, 0, 0⟩⟩, .input 1 Packet.zero,
    .frame 1 false true 17 1, .tick ⟨17, 1, 0, ⟨0, 0, 0⟩⟩, .receive 1]

theorem paddle_prediction_twoFrames :
    ∃ t args', System.run (roomStep mixedMatch) joined twoFrames = some t ∧
      t.clients 1 = some args' ∧
      (ownPlayer args'.localState).pos.y = (playerOf t.server.state 1).pos.y + 0.5 *
        ((args'.inputAccMs.toInt + inFlight (t.up 1) + (inputOf t.server 1).toInt : Int) : ℚ) ∧
      (ownPlayer args'.localState).pos.y = (playerOf joined.server.state 1).pos.y +
        0.5 * (((twoFrames.map (gathered 1)).sum : Int) : ℚ) := by
  have hdistinct : mixedMatch.room.clients 0 ≠ mixedMatch.room.clients 1 := by
    decide
  have hstart : System.run (roomStep mixedMatch) (roomStart mixedMatch ⟨0, 1, 1⟩ .zero)
      [.receive 1] = some joined := (Option.some_get _).symm
  have hsettled : Settled 1 joined joinedArgs :=
    ⟨(Option.some_get _).symm, by decide +kernel, by decide +kernel, by decide +kernel,
      by decide +kernel, by decide +kernel⟩
  have hC : System.AllSteps (roomStep mixedMatch) (WithinRound 1) joined twoFrames := by
    decide +kernel
  have hrun : (System.run (roomStep mixedMatch) joined twoFrames).isSome := by
    decide +kernel
  obtain ⟨t, ht⟩ := Option.isSome_iff_exists.mp hrun
  obtain ⟨args', hpredicts⟩ := paddle_prediction hdistinct hstart hsettled hC ht
  exact ⟨t, args', ht, hpredicts⟩

end CPong
