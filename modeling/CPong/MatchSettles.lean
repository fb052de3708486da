import CPong.MatchSections

/-!
# A match settles

What is under way between the threads of a match can always be taken to where it goes. When it has
been, the clients know what the server has announced.
-/

namespace CPong

set_option autoImplicit false

open Lib

section
variable {F : Type}

/-- A section that takes what is under way further on its way. -/
inductive Delivery (F : Type) where
  | receive (i : Fin 2)
  | setSync (i : Fin 2)
  | zeroInput (i : Fin 2)
  | check (i : Fin 2) (garbage : Packet F)
  | accumulate

def Delivery.step : Delivery F → MatchSection F
  | .receive i => .receive i
  | .setSync i => .setSync i
  | .zeroInput i => .zeroInput i
  | .check i garbage => .check i garbage
  | .accumulate => .accumulate

/-- How many sections the handling of a `PACKET_INIT` still takes. -/
def InitReceipt.left : InitReceipt → Nat
  | .idle => 0
  | .replaced _ => 2
  | .synced _ => 1

def Receiver.left : Receiver → Nat
  | .checked .. => 1
  | _ => 0

def receiptLeft : Option (ClientThreads F) → Nat
  | none => 0
  | some c => c.receipt.left

/-- As many sections as what is under way to and from client `i` can take. -/
def pendingOf (i : Fin 2) (s : MatchThreads F) : Nat :=
  3 * (s.down i).length + receiptLeft (s.clients i) + 2 * (s.up i).length

def pending (s : MatchThreads F) : Nat :=
  pendingOf 0 s + pendingOf 1 s + s.server.receiver.left

def scoreShown (client : Option (ClientThreads F)) : Option (Fin 2 → I32) :=
  client.map fun c => c.args.localState.score

/-- The stream takes a client that shows the score `shown` to the score `score`. -/
inductive Brings (room : Room) :
    Option (Fin 2 → I32) → List (Packet F) → (Fin 2 → I32) → Prop
  | nil (score : Fin 2 → I32) : Brings room (some score) [] score
  | state {p : Packet F} {ps : List (Packet F)} {shown score : Fin 2 → I32}
      (htype : p.type = CpongPacket.state.code) (hrest : Brings room (some shown) ps score) :
      Brings room (some shown) (p :: ps) score
  | init {p : Packet F} {ps : List (Packet F)} {shown : Option (Fin 2 → I32)}
      {score : Fin 2 → I32} (htype : p.type = CpongPacket.init.code)
      (hids : p.data.state.playerIds = room.clients)
      (hfirst : shown = none → p.data.state.score = 0)
      (hrest : Brings room (some p.data.state.score) ps score) : Brings room shown (p :: ps) score

/-- The clients are on the way to the score of the server, but for one that it has not yet
announced. -/
structure ScoresFollow (room : Room) (s : MatchThreads F) : Prop where
  running : s.server.receiver ≠ .stopped
  ids : ∀ i c, s.clients i = some c → c.args.localState.playerIds = room.clients
  brings : ∀ i, ∃ score, Brings room (scoreShown (s.clients i)) (s.down i) score ∧
    (s.server.sender ≠ .scored → score = s.server.globals.state.score)

/-- The game of the server is the same in both states. -/
structure SameServer (s t : MatchThreads F) : Prop where
  state : t.server.globals.state = s.server.globals.state
  sync : t.server.globals.ssync = s.server.globals.ssync
  sender : t.server.sender = s.server.sender

/-- The client knows what the server knows of the match. -/
structure InStep (s : MatchThreads F) (i : Fin 2) (c : ClientThreads F) : Prop where
  client : s.clients i = some c
  sync : c.args.sync = s.server.globals.ssync
  score : c.args.localState.score = s.server.globals.state.score
  ids : c.args.localState.playerIds = s.server.globals.state.playerIds

end

section
variable {F : Type} {room : Room} {p : Packet F} {ps : List (Packet F)}
  {shown : Option (Fin 2 → I32)} {score : Fin 2 → I32}

theorem Brings.add_state (h : Brings room shown ps score)
    (htype : p.type = CpongPacket.state.code) : Brings room shown (ps ++ [p]) score := by
  induction h with
  | nil score => exact .state htype (.nil score)
  | state htype' hrest ih => exact .state htype' ih
  | init htype' hids hfirst hrest ih => exact .init htype' hids hfirst ih

theorem Brings.add_init (h : Brings room shown ps score)
    (htype : p.type = CpongPacket.init.code) (hids : p.data.state.playerIds = room.clients) :
    Brings room shown (ps ++ [p]) p.data.state.score := by
  induction h with
  | nil score => exact .init htype hids (by simp) (.nil _)
  | state htype' hrest ih => exact .state htype' ih
  | init htype' hids' hfirst hrest ih => exact .init htype' hids' hfirst ih

theorem Brings.cons (h : Brings room shown (p :: ps) score) :
    p.type = CpongPacket.state.code ∧ Brings room shown ps score ∨
      p.type = CpongPacket.init.code ∧ p.data.state.playerIds = room.clients ∧
        (shown = none → p.data.state.score = 0) ∧
        Brings room (some p.data.state.score) ps score := by
  cases h with
  | state htype hrest => exact Or.inl ⟨htype, hrest⟩
  | init htype hids hfirst hrest => exact Or.inr ⟨htype, hids, hfirst, hrest⟩

end

section
variable {F : Type} [Field F] [LinearOrder F] [FloorRing F] [Libm F] {m : Match F}
  {s t : MatchThreads F} {room : Room} {ssync : I8} {i : Fin 2}

omit [Field F] [LinearOrder F] [FloorRing F] [Libm F] in
theorem ScoresFollow.of_server {server : RoundServer F} (h : ScoresFollow room s)
    (hrunning : server.receiver ≠ .stopped)
    (hscore : server.sender ≠ .scored → s.server.sender ≠ .scored ∧
      server.globals.state.score = s.server.globals.state.score) :
    ScoresFollow room { s with server := server } := by
  refine ⟨hrunning, h.ids, fun i => ?_⟩
  obtain ⟨score, hbrings, hsame⟩ := h.brings i
  refine ⟨score, hbrings, fun hsender => ?_⟩
  obtain ⟨hbefore, hequal⟩ := hscore hsender
  exact (hsame hbefore).trans hequal.symm

omit [Field F] [LinearOrder F] [FloorRing F] [Libm F] in
theorem ScoresFollow.update {c c' : ClientThreads F} (h : ScoresFollow room s)
    (hc : s.clients i = some c)
    (hids : c'.args.localState.playerIds = c.args.localState.playerIds)
    (hscore : c'.args.localState.score = c.args.localState.score) :
    ScoresFollow room { s with clients := Function.update s.clients i (some c') } := by
  refine ⟨h.running, fun j c₁ hc₁ => ?_, fun j => ?_⟩
  · by_cases hj : j = i
    · subst hj
      cases (Function.update_self j (some c') s.clients).symm.trans hc₁
      exact hids.trans (h.ids j c hc)
    · exact h.ids j c₁ ((Function.update_of_ne hj ..).symm.trans hc₁)
  · obtain ⟨score, hbrings, hsame⟩ := h.brings j
    refine ⟨score, ?_, hsame⟩
    by_cases hj : j = i
    · subst hj
      rw [hc] at hbrings
      simp only [Function.update_self, scoreShown, Option.map_some, hscore] at hbrings ⊢
      exact hbrings
    · simp only [Function.update_of_ne hj]
      exact hbrings

omit [Libm F] in
/-- A client takes over the score of a `PACKET_INIT` and keeps its own at a `PACKET_STATE`. -/
theorem Taken.score {p : Packet F} {ps : List (Packet F)} {score : Fin 2 → I32}
    {old : Option (ClientThreads F)} {client : ClientThreads F} (htaken : Taken m i p old client)
    (hold : ∀ c, old = some c → c.args.localState.playerIds = room.clients)
    (hstream : Brings room (scoreShown old) (p :: ps) score) :
    client.args.localState.playerIds = room.clients ∧
      Brings room (some client.args.localState.score) ps score := by
  obtain ⟨hstate, hrest⟩ | ⟨hinit, hids, hfirst, hrest⟩ := hstream.cons
  · cases htaken with
    | @state c args htype hidle hargs =>
      subst hargs
      have hsnap : (serverSnap c.args.localState
            (packetReceived m.server (m.client i) p Packet.zero).data.state).playerIds =
          c.args.localState.playerIds ∧ (serverSnap c.args.localState
            (packetReceived m.server (m.client i) p Packet.zero).data.state).score =
          c.args.localState.score := by
        unfold serverSnap
        split_ifs <;> exact ⟨rfl, rfl⟩
      refine ⟨hsnap.1.trans (hold c rfl), ?_⟩
      change Brings room (some (serverSnap _ _).score) ps score
      rw [hsnap.2]
      exact hrest
    | first htype =>
      rw [hstate] at htype
      exact absurd htype (by decide)
    | init htype hidle hargs =>
      rw [hstate] at htype
      exact absurd htype (by decide)
  · obtain ⟨hids', -, hscore'⟩ := packetReceived_init m.server (m.client i) hinit Packet.zero
    cases htaken with
    | first htype =>
      refine ⟨hids'.trans hids, ?_⟩
      rw [hfirst rfl] at hrest
      exact hrest
    | state htype hidle hargs =>
      rw [hinit] at htype
      exact absurd htype (by decide)
    | init htype hidle hargs =>
      subst hargs
      refine ⟨hids'.trans hids, ?_⟩
      change Brings room (some (packetReceived m.server (m.client i) p Packet.zero).data.state.score)
        ps score
      rw [hscore']
      exact hrest

theorem ScoresFollow.onClient {j : Fin 2} {l : ClientSection F} (h : ScoresFollow room s)
    (hstep : onClient s j l = some t)
    (hsame : ∀ c c', clientStep c l = some c' →
      c'.args.localState.playerIds = c.args.localState.playerIds ∧
        c'.args.localState.score = c.args.localState.score) : ScoresFollow room t := by
  obtain ⟨c, c', hc, hnext, rfl⟩ := onClient_eq_some hstep
  obtain ⟨hids, hscore⟩ := hsame c c' hnext
  exact h.update hc hids hscore

theorem ScoresFollow.receive {j : Fin 2} (hm : MatchInv m.room ssync s)
    (h : ScoresFollow m.room s) (hstep : matchStep m s (.receive j) = some t) :
    ScoresFollow m.room t := by
  obtain ⟨p, rest, client, hdown, htaken, rfl⟩ := hm.taken hstep
  obtain ⟨score, hbrings, hsame⟩ := h.brings j
  rw [hdown] at hbrings
  obtain ⟨hids, hrest⟩ := htaken.score (h.ids j) hbrings
  refine ⟨h.running, fun i c hc => ?_, fun i => ?_⟩
  · by_cases hi : i = j
    · subst hi
      cases (Function.update_self i (some client) s.clients).symm.trans hc
      exact hids
    · exact h.ids i c ((Function.update_of_ne hi ..).symm.trans hc)
  · by_cases hi : i = j
    · subst hi
      refine ⟨score, ?_, hsame⟩
      simp only [Function.update_self, scoreShown, Option.map_some]
      exact hrest
    · simp only [Function.update_of_ne hi]
      exact h.brings i

theorem ScoresFollow.announce (hm : MatchInv m.room ssync s) (h : ScoresFollow m.room s)
    (hstep : matchStep m s .announce = some t) : ScoresFollow m.room t := by
  obtain ⟨k, hk, rfl⟩ := matchStep_announce hstep
  refine ⟨h.running, h.ids, fun i => ?_⟩
  obtain ⟨score, hbrings, hsame⟩ := h.brings i
  rcases hk with ⟨hsender, rfl⟩ | ⟨hsender, rfl⟩
  · refine ⟨score, hbrings.add_state rfl, fun _ => hsame ?_⟩
    rw [hsender]
    simp
  · exact ⟨_, hbrings.add_init rfl hm.server.ids, fun _ => rfl⟩

theorem ScoresFollow.step {l : MatchSection F} (hm : MatchInv m.room ssync s)
    (h : ScoresFollow m.room s) (hstep : matchStep m s l = some t) : ScoresFollow m.room t := by
  cases l with
  | check j garbage =>
    obtain ⟨p, rest, receiver, -, -, hreceiver, rfl⟩ := matchStep_check hstep (hm.up j)
    have hrunning : receiver ≠ .stopped := by
      rcases hreceiver with ⟨-, rfl⟩ | ⟨-, rfl⟩ <;> simp
    exact ⟨hrunning, h.ids, h.brings⟩
  | accumulate =>
    obtain ⟨server, hserver, rfl⟩ := onServer_eq_some hstep
    obtain ⟨id, inputAccMs, tag, -, rfl⟩ := roundStep_accumulate hserver
    refine h.of_server (by simp) fun hsender => ⟨?_, ?_⟩
    · exact (RoundServer.credit_sender ..).symm.trans_ne hsender
    · exact congrArg PongState.score (onInputReadyAccumulate_state ..)
  | inputs =>
    obtain ⟨server, hserver, rfl⟩ := onServer_eq_some hstep
    obtain ⟨hidle, rfl⟩ := roundStep_inputs hserver
    exact h.of_server h.running fun _ => ⟨by rw [hidle]; simp, rfl⟩
  | advance tick =>
    obtain ⟨server, hserver, rfl⟩ := onServer_eq_some hstep
    obtain ⟨upds, ball, scoredIndex, happlied, -, rfl⟩ := roundStep_advance hserver
    exact h.of_server h.running fun _ => ⟨by rw [happlied]; simp, rfl⟩
  | score rands =>
    obtain ⟨server, hserver, rfl⟩ := onServer_eq_some hstep
    obtain ⟨scoredIndex, j, -, -, rfl⟩ := roundStep_score hserver
    exact h.of_server h.running fun hsender => absurd rfl hsender
  | announce => exact h.announce hm hstep
  | receive j => exact h.receive hm hstep
  | setSync j =>
    refine h.onClient hstep fun c c' hc => ?_
    obtain ⟨sync, -, rfl⟩ := clientStep_setSync hc
    exact ⟨rfl, rfl⟩
  | zeroInput j =>
    refine h.onClient hstep fun c c' hc => ?_
    obtain ⟨stale, -, rfl⟩ := clientStep_zeroInput hc
    exact ⟨rfl, rfl⟩
  | paddleInputs j up down deltaTime =>
    refine h.onClient hstep fun c c' hc => ?_
    obtain ⟨-, rfl⟩ := clientStep_paddleInputs hc
    exact ⟨rfl, rfl⟩
  | localState j fuel =>
    refine h.onClient hstep fun c c' hc => ?_
    obtain ⟨direction, deltaTime, localState, -, hlocal, rfl⟩ := clientStep_localState hc
    obtain ⟨ball, rfl⟩ := updateLocalState_eq_some hlocal
    exact ⟨rfl, rfl⟩
  | network j =>
    obtain ⟨c, hc, rfl⟩ := matchStep_network hstep
    have hnext : ScoresFollow m.room
        { s with clients := Function.update s.clients j (some c.networked) } :=
      h.update hc rfl rfl
    exact ⟨hnext.running, hnext.ids, hnext.brings⟩

/-- What holds of a match while its packets are delivered. -/
structure SettleInv (m : Match F) (ssync : I8) (s : MatchThreads F) : Prop where
  inv : MatchInv m.room ssync s
  scores : ScoresFollow m.room s

theorem SettleInv.step {l : MatchSection F} (h : SettleInv m ssync s)
    (hstep : matchStep m s l = some t) : SettleInv m ssync t :=
  ⟨h.inv.step hstep, h.scores.step h.inv hstep⟩

theorem SettleInv.of_run {rands : Rands} {g : Globals F} {ls : List (MatchSection F)}
    (h : System.run (matchStep m) (matchBegin m rands g) ls = some s) :
    SettleInv m g.ssync s := by
  refine System.invariant (fun _ _ _ hs hstep => SettleInv.step hs hstep)
    ⟨.start rands g, by simp [matchBegin, RoundServer.initial], ?_, fun i => ?_⟩ h
  · intro i c hc
    cases hc
  · exact ⟨0, .init rfl rfl (fun _ => rfl) (.nil 0), fun _ => rfl⟩

omit [Field F] [LinearOrder F] [FloorRing F] [Libm F] in
theorem pending_lt {j : Fin 2} (hother : ∀ i, i ≠ j → pendingOf i t = pendingOf i s)
    (hself : pendingOf j t + t.server.receiver.left < pendingOf j s + s.server.receiver.left) :
    pending t < pending s := by
  unfold pending
  match j with
  | 0 =>
    have h1 := hother 1 (by decide)
    omega
  | 1 =>
    have h0 := hother 0 (by decide)
    omega

omit [Field F] [LinearOrder F] [FloorRing F] [Libm F] in
theorem pending_update {c c' : ClientThreads F} {j : Fin 2} (hc : s.clients j = some c)
    (hleft : c'.receipt.left < c.receipt.left) :
    pending { s with clients := Function.update s.clients j (some c') } < pending s := by
  refine pending_lt (j := j) (fun i hi => ?_) ?_
  · simp only [pendingOf, Function.update_of_ne hi]
  · simp only [pendingOf, Function.update_self, hc, receiptLeft]
    omega

/-- A delivery only takes from what is under way. -/
theorem pending_step (d : Delivery F) (hm : MatchInv m.room ssync s)
    (h : matchStep m s d.step = some t) : pending t < pending s := by
  cases d with
  | receive j =>
    obtain ⟨p, rest, client, hdown, htaken, rfl⟩ := hm.taken h
    refine pending_lt (j := j) (fun i hi => ?_) ?_
    · simp only [pendingOf, Function.update_of_ne hi]
    · have hleft : client.receipt.left ≤ receiptLeft (s.clients j) + 2 := by
        generalize s.clients j = old at htaken
        cases htaken with
        | first htype => exact Nat.zero_le _
        | state htype hidle hargs => exact Nat.le_add_right _ _
        | init htype hidle hargs => exact Nat.le_add_left _ _
      simp only [pendingOf, Function.update_self, receiptLeft, hdown, List.length_cons]
        at hleft ⊢
      omega
  | setSync j =>
    obtain ⟨c, c', hc, hnext, rfl⟩ := onClient_eq_some h
    obtain ⟨sync, hreplaced, rfl⟩ := clientStep_setSync hnext
    refine pending_update hc ?_
    rw [hreplaced]
    exact Nat.one_lt_two
  | zeroInput j =>
    obtain ⟨c, c', hc, hnext, rfl⟩ := onClient_eq_some h
    obtain ⟨stale, hsynced, rfl⟩ := clientStep_zeroInput hnext
    refine pending_update hc ?_
    rw [hsynced]
    exact Nat.one_pos
  | check j garbage =>
    obtain ⟨p, rest, receiver, hup, hidle, hreceiver, rfl⟩ := matchStep_check h (hm.up j)
    refine pending_lt (j := j) (fun i hi => ?_) ?_
    · simp only [pendingOf, Function.update_of_ne hi]
    · have hleft : receiver.left ≤ 1 := by
        rcases hreceiver with ⟨-, rfl⟩ | ⟨-, rfl⟩
        · exact le_rfl
        · exact Nat.zero_le _
      simp only [pendingOf, Function.update_self, hup, List.length_cons]
      omega
  | accumulate =>
    obtain ⟨server, hserver, rfl⟩ := onServer_eq_some h
    obtain ⟨id, inputAccMs, tag, hchecked, rfl⟩ := roundStep_accumulate hserver
    simp only [pending, pendingOf, hchecked, Receiver.left]
    omega

theorem receive_exists (hm : MatchInv m.room ssync s) {p : Packet F} {rest : List (Packet F)}
    (hdown : s.down i = p :: rest) (hidle : receiptLeft (s.clients i) = 0) :
    ∃ t, matchStep m s (.receive i) = some t := by
  apply Option.isSome_iff_exists.mp
  cases hc : s.clients i with
  | none =>
    have hstream := hm.down i
    rw [hdown, hc] at hstream
    obtain ⟨-, hne, -⟩ | ⟨htype, -⟩ := hstream.cons
    · exact absurd rfl hne
    · obtain ⟨args, hargs, -⟩ := clientReceive_first m i htype
      change clientMain _ _ = some args at hargs
      simp only [matchStep, hdown, hc, hargs]
      rfl
  | some c =>
    have hreceipt : c.receipt = .idle := by
      rw [hc] at hidle
      cases hr : c.receipt with
      | idle => rfl
      | _ =>
        simp only [receiptLeft, hr, InitReceipt.left] at hidle
        omega
    simp only [matchStep, hdown, hc, onClient, Option.bind_eq_bind, Option.bind_some,
      clientStep, hreceipt]
    split_ifs <;> rfl

theorem receipt_exists {c : ClientThreads F} (hc : s.clients i = some c)
    (hleft : c.receipt.left ≠ 0) : (∃ t, matchStep m s (.setSync i) = some t) ∨
      ∃ t, matchStep m s (.zeroInput i) = some t := by
  cases hr : c.receipt with
  | idle =>
    rw [hr] at hleft
    exact absurd rfl hleft
  | replaced sync =>
    refine Or.inl (Option.isSome_iff_exists.mp ?_)
    simp [matchStep, onClient, hc, clientStep, hr]
  | synced stale =>
    refine Or.inr (Option.isSome_iff_exists.mp ?_)
    simp [matchStep, onClient, hc, clientStep, hr]

theorem check_exists {p : Packet F} {rest : List (Packet F)} (hup : s.up i = p :: rest)
    (hidle : s.server.receiver = .idle) (garbage : Packet F) :
    ∃ t, matchStep m s (.check i garbage) = some t := by
  apply Option.isSome_iff_exists.mp
  simp only [matchStep, hup, onServer, roundStep, hidle]
  split_ifs <;> rfl

/-- As long as something is under way, something can be delivered. -/
theorem delivery_exists (h : SettleInv m ssync s) (hpending : pending s ≠ 0) :
    ∃ (d : Delivery F) (t : MatchThreads F), matchStep m s d.step = some t := by
  cases hr : s.server.receiver with
  | stopped => exact absurd hr h.scores.running
  | checked id inputAccMs tag =>
    refine ⟨.accumulate, Option.isSome_iff_exists.mp ?_⟩
    simp [Delivery.step, matchStep, onServer, roundStep, hr]
  | idle =>
    obtain ⟨i, hi⟩ : ∃ i, pendingOf i s ≠ 0 := by
      unfold pending at hpending
      rw [hr] at hpending
      by_cases h0 : pendingOf 0 s = 0
      · refine ⟨1, fun h1 => hpending ?_⟩
        rw [h0, h1]
        rfl
      · exact ⟨0, h0⟩
    by_cases hleft : receiptLeft (s.clients i) = 0
    swap
    · cases hc : s.clients i with
      | none =>
        rw [hc] at hleft
        exact absurd rfl hleft
      | some c =>
        rw [hc] at hleft
        rcases receipt_exists (m := m) hc hleft with ⟨t, ht⟩ | ⟨t, ht⟩
        · exact ⟨.setSync i, t, ht⟩
        · exact ⟨.zeroInput i, t, ht⟩
    cases hdown : s.down i with
    | cons p rest =>
      obtain ⟨t, ht⟩ := receive_exists h.inv hdown hleft
      exact ⟨.receive i, t, ht⟩
    | nil =>
      cases hup : s.up i with
      | cons p rest =>
        obtain ⟨t, ht⟩ := check_exists (m := m) hup hr Packet.zero
        exact ⟨.check i Packet.zero, t, ht⟩
      | nil =>
        unfold pendingOf at hi
        rw [hdown, hup, hleft] at hi
        exact absurd rfl hi

omit [LinearOrder F] [FloorRing F] [Libm F] in
/-- The client has heard of all that the server has announced. -/
theorem SettleInv.inStep (h : SettleInv m ssync s) (hnone : pending s = 0)
    (hsender : s.server.sender ≠ .scored) (i : Fin 2) : ∃ c, InStep s i c := by
  have hi : pendingOf i s = 0 := by
    unfold pending at hnone
    match i with
    | 0 => omega
    | 1 => omega
  unfold pendingOf at hi
  have hdown : s.down i = [] := List.length_eq_zero_iff.mp (by omega)
  have hstream := h.inv.down i
  obtain ⟨score, hbrings, hsame⟩ := h.scores.brings i
  rw [hdown] at hstream hbrings
  have hannounced : s.server.announced = s.server.round + 1 := by
    unfold RoundServer.announced
    split
    · exact absurd ‹_› hsender
    · rfl
  rw [hannounced] at hstream
  cases hc : s.clients i with
  | none =>
    rw [hc] at hbrings
    cases hbrings
  | some c =>
    have hleft : c.receipt.left = 0 := by
      rw [hc, receiptLeft] at hi
      omega
    have hround : c.round = s.server.round := by
      rw [hc] at hstream
      have hseen : seenBy (some c) = c.round + 1 := by
        cases hr : c.receipt with
        | replaced sync =>
          rw [hr] at hleft
          cases hleft
        | _ => simp only [seenBy, ClientThreads.fieldRound, hr]
      rw [hseen] at hstream
      generalize s.server.round = k at hstream ⊢
      cases hstream with
      | nil => rfl
    have hcounts := h.inv.clients i c hc
    refine ⟨c, hc, ?_, ?_, (h.scores.ids i c hc).trans h.inv.server.ids.symm⟩
    · rw [hcounts.sync, hround, h.inv.server.sync]
    · rw [hc] at hbrings
      have hequal := hsame hsender
      simp only [scoreShown, Option.map_some] at hbrings
      cases hbrings with
      | nil => exact hequal

theorem SameServer.delivery {s₀ : MatchThreads F} (hsame : SameServer s₀ s) (d : Delivery F)
    (hm : MatchInv m.room ssync s) (h : matchStep m s d.step = some t) : SameServer s₀ t := by
  cases d with
  | receive j =>
    obtain ⟨p, rest, client, -, -, rfl⟩ := hm.taken h
    exact ⟨hsame.state, hsame.sync, hsame.sender⟩
  | setSync j =>
    obtain ⟨c, c', -, -, rfl⟩ := onClient_eq_some h
    exact ⟨hsame.state, hsame.sync, hsame.sender⟩
  | zeroInput j =>
    obtain ⟨c, c', -, -, rfl⟩ := onClient_eq_some h
    exact ⟨hsame.state, hsame.sync, hsame.sender⟩
  | check j garbage =>
    obtain ⟨p, rest, receiver, -, -, -, rfl⟩ := matchStep_check h (hm.up j)
    exact ⟨hsame.state, hsame.sync, hsame.sender⟩
  | accumulate =>
    obtain ⟨server, hserver, rfl⟩ := onServer_eq_some h
    obtain ⟨id, inputAccMs, tag, -, rfl⟩ := roundStep_accumulate hserver
    exact ⟨(onInputReadyAccumulate_state ..).trans hsame.state,
      (onInputReadyAccumulate_ssync ..).trans hsame.sync,
      (RoundServer.credit_sender ..).trans hsame.sender⟩

/-- At any time of a match what is under way can be delivered, in any order, by no more sections
than `pending` says. Both clients then know the sync, the score and the ids of the server, but for
a point that it has not yet announced. -/
theorem match_settles {rands : Rands} {g : Globals F} {ls : List (MatchSection F)}
    (h : System.run (matchStep m) (matchBegin m rands g) ls = some s) :
    (∀ (ds : List (Delivery F)) t,
      System.run (matchStep m) s (ds.map Delivery.step) = some t →
        ds.length + pending t ≤ pending s ∧
        (pending t ≠ 0 → ∃ (d : Delivery F) (u : MatchThreads F), matchStep m t d.step = some u) ∧
        SameServer s t ∧
        (pending t = 0 → s.server.sender ≠ .scored → ∀ i, ∃ c, InStep t i c)) ∧
    ∃ (ds : List (Delivery F)) (t : MatchThreads F),
      System.run (matchStep m) s (ds.map Delivery.step) = some t ∧ pending t = 0 := by
  have hinv : SettleInv m g.ssync s ∧ SameServer s s := ⟨.of_run h, rfl, rfl, rfl⟩
  have hnext : ∀ u (d : Delivery F) v, SettleInv m g.ssync u ∧ SameServer s u →
      matchStep m u d.step = some v →
        (SettleInv m g.ssync v ∧ SameServer s v) ∧ pending v < pending u :=
    fun u d v hu hstep =>
      ⟨⟨hu.1.step hstep, hu.2.delivery d hu.1.inv hstep⟩, pending_step d hu.1.inv hstep⟩
  constructor
  · intro ds t hds
    obtain ⟨⟨hlast, hsame⟩, hcount⟩ := System.run_measure_le hnext hinv hds
    refine ⟨hcount, delivery_exists hlast, hsame, fun hnone hnot => ?_⟩
    exact hlast.inStep hnone (by rwa [hsame.sender])
  · exact System.exists_run_to_zero hnext (fun _ hu => delivery_exists hu.1) hinv

end

/-- The second player presses a key, the server scores, and the second client has just replaced its
field. -/
def afterGoal : List (MatchSection ℚ) :=
  [.receive 1, .paddleInputs 1 false true 16, .localState 1 1, .network 1, .inputs,
    .advance ⟨6000, 1, 0, ⟨0, 0, 0⟩⟩, .score ⟨0, 0, 0⟩, .announce, .receive 1]

theorem match_settles_afterGoal :
    ∃ (s : MatchThreads ℚ) (ds : List (Delivery ℚ)) (t : MatchThreads ℚ),
      System.run (matchStep mixedMatch) (matchBegin mixedMatch ⟨0, 1, 1⟩ .zero) afterGoal = some s ∧
      ds.length ≤ 10 ∧ System.run (matchStep mixedMatch) s (ds.map Delivery.step) = some t ∧
      ∀ i, ∃ c, InStep t i c := by
  have hrun : (System.run (matchStep mixedMatch) (matchBegin mixedMatch ⟨0, 1, 1⟩ .zero)
      afterGoal).map (fun s => (pending s, s.server.sender)) = some (10, .idle) := by
    decide +kernel
  obtain ⟨s, hs, hvalues⟩ := Option.map_eq_some_iff.mp hrun
  obtain ⟨hpending, hsender⟩ := Prod.mk.inj hvalues
  obtain ⟨hends, ds, t, ht, hnone⟩ := match_settles hs
  obtain ⟨hcount, -, -, hsettled⟩ := hends ds t ht
  refine ⟨s, ds, t, hs, ?_, ht, hsettled hnone ?_⟩
  · omega
  · rw [hsender]
    simp

end CPong
