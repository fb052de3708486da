import CPong.Room
import Mathlib.Data.Int.ModEq

/-!
# Round agreement

A client that has processed a message agrees with the server as it was when it sent that
message.
-/

namespace CPong

set_option autoImplicit false

open Lib

section
variable {F : Type} [Field F] [LinearOrder F] [FloorRing F] [Libm F] {m : Match F}
  {s t : RoomState F}

def ownIndex (i : Fin 2) : I32 := BitVec.ofNat 32 i

def Message.IsState (message : Message F) : Prop :=
  ∀ i, (message.packets i).type = CpongPacket.state.code

/-- The message starts a round and says what the server's sync, score and ids are. -/
def Message.IsInit (room : Room) (message : Message F) : Prop :=
  ∀ i, (message.packets i).type = CpongPacket.init.code ∧
    (message.packets i).sync = message.ssync ∧
    (message.packets i).data.state.score = message.score ∧
    (message.packets i).data.state.playerIds = room.clients

def Message.IsFirst (message : Message F) : Prop :=
  message.score = 0 ∧ ∀ i, (message.packets i).data.state.ownIdIndex = ownIndex i

/-- What the server has sent, and what it has now. -/
structure ServerAgrees (m : Match F) (s : RoomState F) : Prop where
  ids : s.server.state.playerIds = m.room.clients
  first : ∃ message, s.sent[0]? = some message ∧ message.IsInit m.room ∧ message.IsFirst
  next : ∀ k message, s.sent[k + 1]? = some message → message.IsInit m.room ∨
    message.IsState ∧ ∃ before, s.sent[k]? = some before ∧ message.ssync = before.ssync ∧
      message.score = before.score
  last : ∃ before, s.sent[s.sent.length - 1]? = some before ∧ before.ssync = s.server.ssync ∧
    before.score = s.server.state.score

/-- The client agrees with the server as it was when it sent `message`. -/
structure Agrees (m : Match F) (i : Fin 2) (args : ClientData F) (message : Message F) :
    Prop where
  sync : args.sync = message.ssync
  score : args.localState.score = message.score
  ids : args.localState.playerIds = m.room.clients
  own : args.localState.ownIdIndex = ownIndex i

def ClientAgrees (m : Match F) (s : RoomState F) (i : Fin 2) : Prop :=
  match s.processed i with
  | 0 => s.clients i = none
  | k + 1 => ∃ args message, s.clients i = some args ∧ s.sent[k]? = some message ∧
      Agrees m i args message

/-- The sum of the scores and the sync move together. -/
def Counted (ssync : I8) (s : RoomState F) : Prop :=
  (s.server.state.score 0).toInt + (s.server.state.score 1).toInt ≡
    s.server.ssync.toInt - ssync.toInt [ZMOD 256]

section Server

theorem ServerAgrees.initial (rands : Rands) (g : Globals F) :
    ServerAgrees m (roomStart m rands g) := by
  refine ⟨rfl, ⟨_, rfl, ?_, rfl, ?_⟩, ?_, ⟨_, rfl, rfl, rfl⟩⟩
  · exact Fin.forall_fin_two.mpr ⟨⟨rfl, rfl, rfl, rfl⟩, ⟨rfl, rfl, rfl, rfl⟩⟩
  · exact Fin.forall_fin_two.mpr ⟨rfl, rfl⟩
  · intro k message hmessage
    cases hmessage

omit [Field F] [LinearOrder F] [FloorRing F] [Libm F] in
theorem sent_append {sent : List (Message F)} {message : Message F} {k : Nat}
    (h : sent[k]? = some message) (new : Message F) : (sent ++ [new])[k]? = some message := by
  obtain ⟨hlt, -⟩ := List.getElem?_eq_some_iff.mp h
  rw [List.getElem?_append_left hlt, h]

omit [Field F] [LinearOrder F] [FloorRing F] [Libm F] in
theorem ServerAgrees.send {g : Globals F} {packet : Packet F} (hs : ServerAgrees m s)
    (hids : g.state.playerIds = m.room.clients)
    (hnew : Message.IsInit m.room ⟨fun _ => packet, g.ssync, g.state.score⟩ ∨
      packet.type = CpongPacket.state.code ∧ g.ssync = s.server.ssync ∧
        g.state.score = s.server.state.score) :
    ServerAgrees m { s with
      server := g
      sent := s.sent ++ [⟨fun _ => packet, g.ssync, g.state.score⟩] } := by
  obtain ⟨before, hbefore, hsync, hscore⟩ := hs.last
  obtain ⟨hpos, -⟩ := List.getElem?_eq_some_iff.mp hbefore
  obtain ⟨first, hfirst, hinit⟩ := hs.first
  refine ⟨hids, ⟨first, sent_append hfirst _, hinit⟩, ?_, ?_⟩
  · intro k message hmessage
    by_cases hk : k + 1 < s.sent.length
    · rw [List.getElem?_append_left hk] at hmessage
      rcases hs.next k message hmessage with hinit | ⟨hstate, old, hold, hsame⟩
      · exact Or.inl hinit
      · exact Or.inr ⟨hstate, old, sent_append hold _, hsame⟩
    · obtain ⟨hlt, hget⟩ := List.getElem?_eq_some_iff.mp hmessage
      rw [List.length_append, List.length_singleton] at hlt
      have hlen : k + 1 = s.sent.length := by omega
      rw [hlen, List.getElem?_concat_length] at hmessage
      cases hmessage
      rcases hnew with hinit | ⟨htype, hsync', hscore'⟩
      · exact Or.inl hinit
      · refine Or.inr ⟨fun _ => htype, before, sent_append ?_ _, hsync'.trans hsync.symm,
          hscore'.trans hscore.symm⟩
        rw [← hbefore]
        congr 1
        omega
  · refine ⟨⟨fun _ => packet, g.ssync, g.state.score⟩, ?_, rfl, rfl⟩
    rw [List.length_append, List.length_singleton, Nat.add_sub_cancel,
      List.getElem?_concat_length]

theorem ServerAgrees.tick {tick : Tick} (hs : ServerAgrees m s)
    (h : roomStep m s (.tick tick) = some t) : ServerAgrees m t := by
  obtain ⟨packet, g, htick, rfl⟩ := roomStep_tick h
  apply hs.send
  · rw [(sendState_ids htick).1, hs.ids]
  · obtain ⟨scoredIndex, ball, -, ⟨-, rfl, rfl⟩ | ⟨i, -, rfl, rfl⟩⟩ := sendState_cases htick
    · exact Or.inr ⟨rfl, rfl, rfl⟩
    · exact Or.inl fun _ => ⟨rfl, rfl, rfl, hs.ids⟩

omit [Field F] [LinearOrder F] [FloorRing F] [Libm F] in
theorem ServerAgrees.of_same {server : Globals F} {processed : Fin 2 → Nat}
    {clients : Fin 2 → Option (ClientData F)} {up : Fin 2 → List (Packet F)}
    (hs : ServerAgrees m s) (hstate : server.state = s.server.state)
    (hsync : server.ssync = s.server.ssync) :
    ServerAgrees m ⟨server, s.sent, processed, clients, up⟩ := by
  refine ⟨?_, hs.first, hs.next, ?_⟩
  · rw [hstate, hs.ids]
  · rw [hsync, hstate]
    exact hs.last

theorem ServerAgrees.step (l : RoomStep F) (hs : ServerAgrees m s)
    (h : roomStep m s l = some t) : ServerAgrees m t := by
  cases l with
  | tick tick => exact hs.tick h
  | input i garbage =>
    obtain ⟨p, rest, -, rfl⟩ := roomStep_input h
    exact hs.of_same (onInputReady_state _ _ _ _) (onInputReady_ssync _ _ _ _)
  | receive i =>
    obtain ⟨message, args, -, -, rfl⟩ := roomStep_receive h
    exact hs.of_same rfl rfl
  | frame i up down deltaTime fuel =>
    obtain ⟨args, args', -, -, rfl⟩ := roomStep_frame h
    exact hs.of_same rfl rfl
  | network i =>
    obtain ⟨args, -, rfl⟩ := roomStep_network h
    exact hs.of_same rfl rfl

end Server

section Clients

theorem ClientAgrees.initial (rands : Rands) (g : Globals F) (i : Fin 2) :
    ClientAgrees m (roomStart m rands g) i :=
  rfl

omit [Field F] [LinearOrder F] [FloorRing F] [Libm F] in
theorem ClientAgrees.of_same {server : Globals F} {new : List (Message F)}
    {up : Fin 2 → List (Packet F)} {i : Fin 2} (hc : ClientAgrees m s i) :
    ClientAgrees m ⟨server, s.sent ++ new, s.processed, s.clients, up⟩ i := by
  unfold ClientAgrees at hc ⊢
  cases hk : s.processed i with
  | zero =>
    simp only [hk] at hc ⊢
    exact hc
  | succ k =>
    simp only [hk] at hc ⊢
    obtain ⟨args, message, hargs, hmessage, hagrees⟩ := hc
    obtain ⟨hlt, -⟩ := List.getElem?_eq_some_iff.mp hmessage
    refine ⟨args, message, hargs, ?_, hagrees⟩
    rw [List.getElem?_append_left hlt, hmessage]

omit [Field F] [LinearOrder F] [FloorRing F] [Libm F] in
theorem ClientAgrees.keep {i : Fin 2} {args args' : ClientData F} {up : Fin 2 → List (Packet F)}
    (hc : ∀ j, ClientAgrees m s j) (hargs : s.clients i = some args)
    (hkeep : ∀ message, Agrees m i args message → Agrees m i args' message) (j : Fin 2) :
    ClientAgrees m { s with clients := Function.update s.clients i (some args'), up := up } j := by
  have hj := hc j
  unfold ClientAgrees at hj ⊢
  by_cases hji : j = i
  · subst hji
    cases hk : s.processed j with
    | zero =>
      simp only [hk, hargs] at hj
      cases hj
    | succ k =>
      simp only [hk, hargs] at hj ⊢
      obtain ⟨_, message, heq, hmessage, hagrees⟩ := hj
      cases heq
      exact ⟨args', message, Function.update_self .., hmessage, hkeep message hagrees⟩
  · simp only [Function.update_of_ne hji]
    exact hj

omit [Field F] [LinearOrder F] [FloorRing F] [Libm F] in
theorem Agrees.receiveState {i : Fin 2} {args : ClientData F} {before message : Message F}
    (h : Agrees m i args before) (hsync : message.ssync = before.ssync)
    (hscore : message.score = before.score) (server : PongState F) :
    Agrees m i (receiveState args server) message := by
  have hsnap : (serverSnap args.localState server).playerIds = args.localState.playerIds ∧
      (serverSnap args.localState server).score = args.localState.score ∧
      (serverSnap args.localState server).ownIdIndex = args.localState.ownIdIndex := by
    unfold serverSnap
    split_ifs
    · exact ⟨rfl, rfl, rfl⟩
    · exact ⟨rfl, rfl, rfl⟩
  obtain ⟨hids', hscore', hown'⟩ := hsnap
  exact ⟨h.sync.trans hsync.symm, hscore'.trans (h.score.trans hscore.symm), hids'.trans h.ids,
    hown'.trans h.own⟩

omit [Libm F] in
/-- A client that processes its next message agrees with the server at that message. -/
theorem ClientAgrees.receive_self {i : Fin 2} {message : Message F} {args : ClientData F}
    (hs : ServerAgrees m s) (hc : ClientAgrees m s i)
    (hmessage : s.sent[s.processed i]? = some message)
    (hargs : clientReceive m i (message.packets i) (s.clients i) = some args) :
    Agrees m i args message := by
  unfold ClientAgrees at hc
  cases hk : s.processed i with
  | zero =>
    simp only [hk] at hc
    obtain ⟨first, hfirst, hinit, hscore, hown⟩ := hs.first
    rw [hk, hfirst] at hmessage
    cases hmessage
    obtain ⟨htype, hsync, -, hids⟩ := hinit i
    obtain ⟨got, hgot, hsync', -, hscore', hids', hown'⟩ := clientReceive_first m i htype
    rw [hc, hgot] at hargs
    cases hargs
    exact ⟨hsync'.trans hsync, hscore'.trans hscore.symm, hids'.trans hids,
      hown'.trans (hown i)⟩
  | succ k =>
    simp only [hk] at hc
    obtain ⟨old, before, hold, hbefore, hagrees⟩ := hc
    rw [hk] at hmessage
    rcases hs.next k message hmessage with hinit | ⟨hstate, before', hbefore', hsync, hscore⟩
    · obtain ⟨htype, hsync, hscore, hids⟩ := hinit i
      obtain ⟨got, hgot, hsync', hscore', hids', hown'⟩ :=
        clientReceive_init m i old htype
      rw [hold, hgot] at hargs
      cases hargs
      exact ⟨hsync'.trans hsync, hscore'.trans hscore, hids'.trans hids,
        hown'.trans hagrees.own⟩
    · rw [hbefore] at hbefore'
      cases hbefore'
      obtain ⟨server, hgot⟩ := clientReceive_state m i old (hstate i)
      rw [hold, hgot] at hargs
      cases hargs
      exact hagrees.receiveState hsync hscore server

theorem ClientAgrees.receive {i : Fin 2} (hs : ServerAgrees m s)
    (hc : ∀ j, ClientAgrees m s j) (h : roomStep m s (.receive i) = some t) (j : Fin 2) :
    ClientAgrees m t j := by
  obtain ⟨message, args, hmessage, hargs, rfl⟩ := roomStep_receive h
  have hself := ClientAgrees.receive_self hs (hc i) hmessage hargs
  have hj := hc j
  unfold ClientAgrees at hj ⊢
  by_cases hji : j = i
  · subst hji
    simp only [Function.update_self]
    exact ⟨args, message, rfl, hmessage, hself⟩
  · simp only [Function.update_of_ne hji]
    exact hj

theorem ClientAgrees.step (l : RoomStep F) (hs : ServerAgrees m s)
    (hc : ∀ j, ClientAgrees m s j) (h : roomStep m s l = some t) (j : Fin 2) :
    ClientAgrees m t j := by
  cases l with
  | tick tick =>
    obtain ⟨packet, g, -, rfl⟩ := roomStep_tick h
    exact (hc j).of_same
  | input i garbage =>
    obtain ⟨p, rest, -, rfl⟩ := roomStep_input h
    exact hc j
  | receive i => exact ClientAgrees.receive hs hc h j
  | frame i up down deltaTime fuel =>
    obtain ⟨args, args', hargs, hupdate, rfl⟩ := roomStep_frame h
    apply ClientAgrees.keep hc hargs
    intro message hagrees
    obtain ⟨localState, hlocal, rfl⟩ := update_eq_some hupdate
    obtain ⟨ball, rfl⟩ := updateLocalState_eq_some hlocal
    exact ⟨hagrees.sync, hagrees.score, hagrees.ids, hagrees.own⟩
  | network i =>
    obtain ⟨args, hargs, rfl⟩ := roomStep_network h
    apply ClientAgrees.keep hc hargs
    intro message hagrees
    exact ⟨hagrees.sync, hagrees.score, hagrees.ids, hagrees.own⟩

end Clients

section Score

theorem toInt_add_one_modEq {w : Nat} (hw : 8 ≤ w) (x : BitVec w) :
    (x + 1).toInt ≡ x.toInt + 1 [ZMOD 256] := by
  have hdvd : (256 : Int) ∣ ((2 ^ w : Nat) : Int) := by
    have hpow : 2 ^ 8 ∣ 2 ^ w := Nat.pow_dvd_pow 2 hw
    exact_mod_cast hpow
  have hone : (1 : BitVec w).toInt = 1 := BitVec.toInt_one (by omega)
  have hmod : (x + 1).toInt ≡ x.toInt + 1 [ZMOD (2 ^ w : Nat)] := by
    rw [BitVec.toInt_add, hone]
    exact Int.bmod_emod
  exact hmod.of_dvd hdvd

theorem sendState_score {tick : Tick} {packet : Packet F} {g g' : Globals F}
    (h : sendState tick g = some (packet, g')) :
    g'.state.score = g.state.score ∧ g'.ssync = g.ssync ∨
      ∃ i, g'.state.score = Function.update g.state.score i (g.state.score i + 1) ∧
        g'.ssync = g.ssync + 1 := by
  obtain ⟨scoredIndex, ball, -, ⟨-, rfl, -⟩ | ⟨i, -, rfl, -⟩⟩ := sendState_cases h
  · exact Or.inl ⟨rfl, rfl⟩
  · exact Or.inr ⟨i, rfl, rfl⟩

theorem Counted.tick {ssync : I8} {tick : Tick} (hs : Counted ssync s)
    (h : roomStep m s (.tick tick) = some t) : Counted ssync t := by
  obtain ⟨packet, g, htick, rfl⟩ := roomStep_tick h
  unfold Counted at hs ⊢
  rcases sendState_score htick with ⟨hscore, hsync⟩ | ⟨i, hscore, hsync⟩
  · rw [hscore, hsync]
    exact hs
  · have hpoint : (g.state.score 0).toInt + (g.state.score 1).toInt ≡
        (s.server.state.score 0).toInt + (s.server.state.score 1).toInt + 1 [ZMOD 256] := by
      rw [hscore]
      revert i
      refine Fin.forall_fin_two.mpr ⟨?_, ?_⟩
      · intro _
        have hnext := (toInt_add_one_modEq (by decide) (s.server.state.score 0)).add_right
          (s.server.state.score 1).toInt
        simpa [add_right_comm] using hnext
      · intro _
        have hnext := (toInt_add_one_modEq (by decide) (s.server.state.score 1)).add_left
          (s.server.state.score 0).toInt
        simpa [add_assoc] using hnext
    have hround := toInt_add_one_modEq (by decide) s.server.ssync
    rw [hsync]
    calc (g.state.score 0).toInt + (g.state.score 1).toInt
        ≡ (s.server.state.score 0).toInt + (s.server.state.score 1).toInt + 1 [ZMOD 256] := hpoint
      _ ≡ s.server.ssync.toInt - ssync.toInt + 1 [ZMOD 256] := hs.add_right 1
      _ ≡ s.server.ssync.toInt + 1 - ssync.toInt [ZMOD 256] := by rw [sub_add_eq_add_sub]
      _ ≡ (s.server.ssync + 1).toInt - ssync.toInt [ZMOD 256] := (hround.sub_right _).symm

theorem Counted.step {ssync : I8} (l : RoomStep F) (hs : Counted ssync s)
    (h : roomStep m s l = some t) : Counted ssync t := by
  cases l with
  | tick tick => exact hs.tick h
  | input i garbage =>
    obtain ⟨p, rest, -, rfl⟩ := roomStep_input h
    unfold Counted serverReceive
    rw [onInputReady_state, onInputReady_ssync]
    exact hs
  | receive i =>
    obtain ⟨message, args, -, -, rfl⟩ := roomStep_receive h
    exact hs
  | frame i up down deltaTime fuel =>
    obtain ⟨args, args', -, -, rfl⟩ := roomStep_frame h
    exact hs
  | network i =>
    obtain ⟨args, -, rfl⟩ := roomStep_network h
    exact hs

end Score

section WholeMatch

/-- What holds at any time of a match that began with `ssync`. -/
structure RoundInv (m : Match F) (ssync : I8) (s : RoomState F) : Prop where
  server : ServerAgrees m s
  clients : ∀ i, ClientAgrees m s i
  counted : Counted ssync s

theorem RoundInv.of_run {rands : Rands} {g : Globals F} {ls : List (RoomStep F)}
    (h : System.run (roomStep m) (roomStart m rands g) ls = some s) : RoundInv m g.ssync s := by
  have hinit : RoundInv m g.ssync (roomStart m rands g) := by
    refine ⟨ServerAgrees.initial rands g, ClientAgrees.initial rands g, ?_⟩
    unfold Counted
    simp [roomStart, startPongGame, initGame]
  refine System.invariant (fun s l t hs hstep => ?_) hinit h
  exact ⟨hs.server.step l hstep, ClientAgrees.step l hs.server hs.clients hstep,
    hs.counted.step l hstep⟩

/-- At any time of a match every client agrees with the server as it was when it sent the
last message that the client has processed; the points made and the rounds begun are as
many, and a tick makes at most one point. -/
theorem round_agreement {rands : Rands} {g : Globals F} {ls : List (RoomStep F)}
    (h : System.run (roomStep m) (roomStart m rands g) ls = some s) :
    (∀ i k, s.processed i = k + 1 → ∃ args message, s.clients i = some args ∧
      s.sent[k]? = some message ∧ args.sync = message.ssync ∧
      args.localState.score = message.score ∧ args.localState.playerIds = m.room.clients ∧
      args.localState.ownIdIndex = ownIndex i) ∧
    (s.server.state.score 0).toInt + (s.server.state.score 1).toInt ≡
      s.server.ssync.toInt - g.ssync.toInt [ZMOD 256] ∧
    ∀ tick t, roomStep m s (.tick tick) = some t →
      t.server.state.score = s.server.state.score ∨
        ∃ i, t.server.state.score =
          Function.update s.server.state.score i (s.server.state.score i + 1) := by
  have hinv := RoundInv.of_run h
  refine ⟨?_, hinv.counted, ?_⟩
  · intro i k hk
    have hclient := hinv.clients i
    simp only [ClientAgrees, hk] at hclient
    obtain ⟨args, message, hargs, hmessage, hagrees⟩ := hclient
    exact ⟨args, message, hargs, hmessage, hagrees.sync, hagrees.score, hagrees.ids, hagrees.own⟩
  · intro tick t htick
    obtain ⟨packet, g', hsend, rfl⟩ := roomStep_tick htick
    rcases sendState_score hsend with ⟨hscore, -⟩ | ⟨i, hscore, -⟩
    · exact Or.inl hscore
    · exact Or.inr ⟨i, hscore⟩

end WholeMatch

end

/-- A match of a little-endian server with a little-endian and a big-endian client. -/
def mixedMatch : Match ℚ :=
  ⟨⟨![1, 2]⟩, ⟨.little, fun _ => 0⟩, ![⟨.little, fun _ => 0⟩, ⟨.big, fun _ => 0⟩]⟩

/-- The second client joins, plays a frame, and sees the end of the first round. -/
def firstRound : List (RoomStep ℚ) :=
  [.receive 1, .frame 1 false true 16 1, .network 1, .input 1 Packet.zero,
    .tick ⟨6000, 1, 0, ⟨0, 0, 0⟩⟩, .receive 1]

theorem round_agreement_firstRound :
    ∃ s, System.run (roomStep mixedMatch) (roomStart mixedMatch ⟨0, 1, 1⟩ .zero) firstRound =
        some s ∧ s.processed 1 = 2 ∧ s.server.state.score 1 = 1 ∧
      (∃ args message, s.clients 1 = some args ∧ s.sent[1]? = some message ∧
        args.sync = message.ssync ∧ args.localState.score = message.score ∧
        args.localState.playerIds = ![1, 2] ∧ args.localState.ownIdIndex = ownIndex 1) := by
  have hrun : (System.run (roomStep mixedMatch) (roomStart mixedMatch ⟨0, 1, 1⟩ .zero)
      firstRound).map (fun s => (s.processed 1, s.server.state.score 1)) = some (2, 1) := by
    decide +kernel
  obtain ⟨s, hs, hcounts⟩ := Option.map_eq_some_iff.mp hrun
  have hprocessed : s.processed 1 = 2 := congrArg Prod.fst hcounts
  exact ⟨s, hs, hprocessed, congrArg Prod.snd hcounts,
    (round_agreement hs).1 1 1 hprocessed⟩

end CPong
