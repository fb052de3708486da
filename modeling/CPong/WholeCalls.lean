import CPong.MatchSections

/-!
# Whole calls and their sections

A room whose steps are whole calls is a match in which no thread comes between the sections of
another's call.
-/

namespace CPong

set_option autoImplicit false

open Lib

section
variable {F : Type} [Field F] [LinearOrder F] [FloorRing F] [Libm F] {m : Match F}

/-- No thread is inside a call, and the room is as `r` has it. -/
structure BetweenCalls (s : MatchThreads F) (r : RoomState F) : Prop where
  globals : s.server.globals = r.server
  sender : s.server.sender = .idle
  receiver : s.server.receiver = .idle
  clients : ∀ i, r.clients i = (s.clients i).map ClientThreads.args
  idle : ∀ i c, s.clients i = some c → c.receipt = .idle ∧ c.frame = none
  down : ∀ i, s.down i = (r.sent.drop (r.processed i)).map fun message => message.packets i
  processed : ∀ i, r.processed i ≤ r.sent.length
  up : s.up = r.up

variable {s : MatchThreads F} {r r' : RoomState F} {i : Fin 2}

omit [Field F] [LinearOrder F] [FloorRing F] [Libm F] in
theorem BetweenCalls.client (h : BetweenCalls s r) {args : ClientData F}
    (hargs : r.clients i = some args) :
    ∃ c, s.clients i = some c ∧ c.args = args ∧ c.receipt = .idle ∧ c.frame = none := by
  rw [h.clients i, Option.map_eq_some_iff] at hargs
  obtain ⟨c, hc, hcargs⟩ := hargs
  exact ⟨c, hc, hcargs, h.idle i c hc⟩

omit [Field F] [LinearOrder F] [FloorRing F] [Libm F] in
theorem BetweenCalls.update (h : BetweenCalls s r) {c : ClientThreads F}
    (hidle : c.receipt = .idle ∧ c.frame = none) :
    BetweenCalls { s with clients := Function.update s.clients i (some c) }
      { r with clients := Function.update r.clients i (some c.args) } := by
  refine ⟨h.globals, h.sender, h.receiver, fun j => ?_, fun j c' hc' => ?_, h.down, h.processed,
    h.up⟩
  · by_cases hj : j = i
    · subst hj
      simp only [Function.update_self, Option.map_some]
    · simp only [Function.update_of_ne hj]
      exact h.clients j
  · by_cases hj : j = i
    · subst hj
      cases (Function.update_self j (some c) s.clients).symm.trans hc'
      exact hidle
    · exact h.idle j c' ((Function.update_of_ne hj ..).symm.trans hc')

theorem run_clientSections {ks : List (MatchSection F)} {ls : List (ClientSection F)}
    (hks : List.Forall₂ (fun k l => ∀ s, matchStep m s k = onClient s i l) ks ls)
    {c c' : ClientThreads F} (hc : s.clients i = some c) (h : System.run clientStep c ls = some c') :
    System.run (matchStep m) s ks =
      some { s with clients := Function.update s.clients i (some c') } := by
  induction hks generalizing s c with
  | nil =>
    cases h
    rw [← hc, Function.update_eq_self]
    rfl
  | cons hk hrest ih =>
    obtain ⟨mid, hmid, hrun⟩ := System.run_cons_eq_some.mp h
    refine System.run_cons_eq_some.mpr
      ⟨{ s with clients := Function.update s.clients i (some mid) }, ?_, ?_⟩
    · rw [hk, onClient, hc, Option.bind_eq_bind, Option.bind_some, hmid]
      rfl
    · have hnext := ih (s := { s with clients := Function.update s.clients i (some mid) })
        (Function.update_self ..) hrun
      rw [hnext]
      simp only [Function.update_idem]

theorem run_serverSections {ks : List (MatchSection F)} {ls : List (RoundSection F)}
    (hks : List.Forall₂ (fun k l => ∀ s, matchStep m s k = onServer s l) ks ls)
    {server : RoundServer F} (h : System.run roundStep s.server ls = some server) :
    System.run (matchStep m) s ks = some { s with server := server } := by
  induction hks generalizing s with
  | nil =>
    cases h
    rfl
  | cons hk hrest ih =>
    obtain ⟨mid, hmid, hrun⟩ := System.run_cons_eq_some.mp h
    refine System.run_cons_eq_some.mpr ⟨{ s with server := mid }, ?_, ?_⟩
    · rw [hk, onServer, hmid]
      rfl
    · exact ih (s := { s with server := mid }) hrun

theorem BetweenCalls.tick {tick : Tick} (h : BetweenCalls s r)
    (hstep : roomStep m r (.tick tick) = some r') :
    ∃ ls t, System.run (matchStep m) s ls = some t ∧ BetweenCalls t r' := by
  obtain ⟨packet, g, htick, rfl⟩ := roomStep_tick hstep
  rw [← h.globals] at htick
  obtain ⟨ls, server, k, hls, hrun, hsender, hreceiver, hg, hsent, hpacket⟩ :=
    sendState_sections h.sender htick
  have hlift : ∃ ks : List (MatchSection F), List.Forall₂
      (fun k l => ∀ s, matchStep m s k = onServer s l) ks (.inputs :: .advance tick :: ls) := by
    rcases hls with rfl | rfl
    · exact ⟨[.inputs, .advance tick],
        .cons (fun _ => rfl) (.cons (fun _ => rfl) .nil)⟩
    · exact ⟨[.inputs, .advance tick, .score tick.rands],
        .cons (fun _ => rfl) (.cons (fun _ => rfl) (.cons (fun _ => rfl) .nil))⟩
  obtain ⟨ks, hks⟩ := hlift
  have hannounce : matchStep m { s with server := server } .announce = some { s with
      server := { server with
        sender := .idle
        sent := server.sent ++ [sendStatePacket k server.globals] }
      down := fun i => s.down i ++ [sendStatePacket k server.globals] } := by
    simp only [matchStep, roundStep_announce_eq hsender, Option.bind_eq_bind, Option.bind_some,
      List.drop_left, Option.pure_def]
  have hall : System.run (matchStep m) s (ks ++ [.announce]) =
      matchStep m { s with server := server } .announce := by
    rw [System.run_append, run_serverSections hks hrun]
    exact Option.bind_fun_some _
  refine ⟨_, _, hall.trans hannounce, ⟨hg, rfl, hreceiver.trans h.receiver, h.clients, h.idle, fun i => ?_,
    fun i => ?_, h.up⟩⟩
  · have hle := h.processed i
    simp only [List.drop_append_of_le_length hle, List.map_append, List.map_cons, List.map_nil]
    rw [h.down i, hpacket, hg]
  · have hle := h.processed i
    simp only [List.length_append, List.length_singleton]
    omega

theorem BetweenCalls.input {j : Fin 2} {garbage : Packet F} (h : BetweenCalls s r)
    (hinput : ∀ p ∈ s.up j, p.type = CpongPacket.input.code)
    (hstep : roomStep m r (.input j garbage) = some r') :
    ∃ ls t, System.run (matchStep m) s ls = some t ∧ BetweenCalls t r' := by
  obtain ⟨p, rest, hup, rfl⟩ := roomStep_input hstep
  rw [← h.up] at hup
  have hpos := packetFrame_length_pos (m.client j) (hinput p (by rw [hup]; exact List.mem_cons_self))
  have hres : ((packetFrame (m.client j) p).length : Int) ≠ 0 := by omega
  obtain ⟨ls, server, hls, hrun, hreceiver, hsender, hglobals⟩ :=
    onInputReady_sections h.receiver (m.room.clients j) hres
      (packetReceived (m.client j) m.server p garbage)
  obtain ⟨mid, hmid, hrest⟩ := System.run_cons_eq_some.mp hrun
  have hlift : ∃ ks : List (MatchSection F), List.Forall₂
      (fun k l => ∀ s, matchStep m s k = onServer s l) ks ls := by
    rcases hls with rfl | rfl
    · exact ⟨[], .nil⟩
    · exact ⟨[.accumulate], .cons (fun _ => rfl) .nil⟩
  obtain ⟨ks, hks⟩ := hlift
  have hcheck : matchStep m s (.check j garbage) =
      some { s with server := mid, up := Function.update s.up j rest } := by
    simp only [matchStep, hup, onServer, hmid, Option.map_some]
  refine ⟨.check j garbage :: ks, _, System.run_cons_eq_some.mpr ⟨_, hcheck,
    run_serverSections (s := { s with server := mid, up := Function.update s.up j rest }) hks
      hrest⟩, ⟨?_, hsender.trans h.sender, hreceiver, h.clients, h.idle, h.down, h.processed, ?_⟩⟩
  · rw [hglobals, h.globals]
    rfl
  · simp only [h.up]

theorem BetweenCalls.frame {j : Fin 2} {up down : Bool} {deltaTime : I32} {fuel : Nat}
    (h : BetweenCalls s r) (hstep : roomStep m r (.frame j up down deltaTime fuel) = some r') :
    ∃ ls t, System.run (matchStep m) s ls = some t ∧ BetweenCalls t r' := by
  obtain ⟨args, args', hargs, hupdate, rfl⟩ := roomStep_frame hstep
  obtain ⟨c, hc, rfl, hreceipt, hframe⟩ := h.client hargs
  obtain ⟨c', hrun, hreceipt', hframe', rfl⟩ := update_sections hframe hupdate
  exact ⟨[.paddleInputs j up down deltaTime, .localState j fuel], _,
    run_clientSections (.cons (fun _ => rfl) (.cons (fun _ => rfl) .nil)) hc hrun,
    h.update ⟨hreceipt'.trans hreceipt, hframe'⟩⟩

theorem BetweenCalls.network {j : Fin 2} (h : BetweenCalls s r)
    (hstep : roomStep m r (.network j) = some r') :
    ∃ ls t, System.run (matchStep m) s ls = some t ∧ BetweenCalls t r' := by
  obtain ⟨args, hargs, rfl⟩ := roomStep_network hstep
  obtain ⟨c, hc, rfl, hreceipt, hframe⟩ := h.client hargs
  have hnetwork : matchStep m s (.network j) = some { s with
      clients := Function.update s.clients j (some c.networked)
      up := Function.update s.up j (s.up j ++ [(networkUpdate c.args).1]) } := by
    simp [matchStep, hc, clientStep, ClientThreads.networked]
  have hnext := h.update (i := j) (c := c.networked) ⟨hreceipt, hframe⟩
  refine ⟨[.network j], _, System.run_cons_eq_some.mpr ⟨_, hnetwork, rfl⟩, ⟨hnext.globals,
    hnext.sender, hnext.receiver, hnext.clients, hnext.idle, hnext.down, hnext.processed, ?_⟩⟩
  simp only [h.up]

theorem BetweenCalls.receive {j : Fin 2} (h : BetweenCalls s r)
    (hstep : roomStep m r (.receive j) = some r') :
    ∃ ls t, System.run (matchStep m) s ls = some t ∧ BetweenCalls t r' := by
  obtain ⟨message, args, hmessage, hargs, rfl⟩ := roomStep_receive hstep
  obtain ⟨hlt, hget⟩ := List.getElem?_eq_some_iff.mp hmessage
  have hdown : s.down j = message.packets j ::
      (r.sent.drop (r.processed j + 1)).map fun message => message.packets j := by
    rw [h.down j, List.drop_eq_getElem_cons hlt, hget, List.map_cons]
  have hstreams {c : ClientThreads F} (hidle : c.receipt = .idle ∧ c.frame = none)
      (hcargs : c.args = args) : BetweenCalls
      { s with
        clients := Function.update s.clients j (some c)
        down := Function.update s.down j
          ((r.sent.drop (r.processed j + 1)).map fun message => message.packets j) }
      { r with
        clients := Function.update r.clients j (some args)
        processed := Function.update r.processed j (r.processed j + 1) } := by
    subst hcargs
    have hnext := h.update (i := j) hidle
    refine ⟨hnext.globals, hnext.sender, hnext.receiver, hnext.clients, hnext.idle, fun i => ?_,
      fun i => ?_, hnext.up⟩
    · by_cases hi : i = j
      · subst hi
        simp only [Function.update_self]
      · simp only [Function.update_of_ne hi]
        exact h.down i
    · by_cases hi : i = j
      · subst hi
        simp only [Function.update_self]
        omega
      · simp only [Function.update_of_ne hi]
        exact h.processed i
  cases hold : s.clients j with
  | none =>
    have hnone : r.clients j = none := by rw [h.clients j, hold, Option.map_none]
    rw [hnone, clientReceive] at hargs
    refine ⟨[.receive j], _, System.run_cons_eq_some.mpr ⟨_, ?_, rfl⟩,
      hstreams (c := .initial args) ⟨rfl, rfl⟩ rfl⟩
    simp only [matchStep, hdown, hold, hargs, Option.map_some]
  | some c =>
    obtain ⟨hreceipt, hframe⟩ := h.idle j c hold
    have hsome : r.clients j = some c.args := by rw [h.clients j, hold, Option.map_some]
    rw [hsome, clientReceive] at hargs
    obtain ⟨ls, c', hls, hrun, hreceipt', hframe', hcargs⟩ :=
      serverStateReceive_sections hreceipt (packetFrame m.server (message.packets j)).length
        (packetReceived m.server (m.client j) (message.packets j) Packet.zero)
    have hlift : ∃ ks : List (MatchSection F), List.Forall₂
        (fun k l => ∀ s, matchStep m s k = onClient s j l) ks ls := by
      rcases hls with rfl | rfl
      · exact ⟨[], .nil⟩
      · exact ⟨[.setSync j, .zeroInput j], .cons (fun _ => rfl) (.cons (fun _ => rfl) .nil)⟩
    obtain ⟨ks, hks⟩ := hlift
    obtain ⟨mid, hmid, hrest⟩ := System.run_cons_eq_some.mp hrun
    have hreceive : matchStep m s (.receive j) = some { s with
        clients := Function.update s.clients j (some mid)
        down := Function.update s.down j
          ((r.sent.drop (r.processed j + 1)).map fun message => message.packets j) } := by
      simp only [matchStep, hdown, hold, onClient, hmid, Option.bind_eq_bind,
        Option.bind_some, Option.pure_def]
    have hsections := run_clientSections (m := m) (i := j) (s := { s with
      clients := Function.update s.clients j (some mid)
      down := Function.update s.down j
        ((r.sent.drop (r.processed j + 1)).map fun message => message.packets j) })
      hks (Function.update_self ..) hrest
    simp only [Function.update_idem] at hsections
    exact ⟨.receive j :: ks, _, System.run_cons_eq_some.mpr ⟨_, hreceive, hsections⟩,
      hstreams ⟨hreceipt', hframe'.trans hframe⟩ (hcargs.trans (Option.some.inj hargs))⟩

/-- What whole calls do, their sections do when no other thread comes between them. -/
theorem BetweenCalls.step {l : RoomStep F} (h : BetweenCalls s r)
    (hinput : ∀ i, ∀ p ∈ s.up i, p.type = CpongPacket.input.code)
    (hstep : roomStep m r l = some r') :
    ∃ ls t, System.run (matchStep m) s ls = some t ∧ BetweenCalls t r' := by
  cases l with
  | tick tick => exact h.tick hstep
  | input j garbage => exact h.input (hinput j) hstep
  | receive j => exact h.receive hstep
  | frame j up down deltaTime fuel => exact h.frame hstep
  | network j => exact h.network hstep

theorem BetweenCalls.start (rands : Rands) (g : Globals F) :
    BetweenCalls (matchBegin m rands g) (roomStart m rands g) := by
  refine ⟨rfl, rfl, rfl, fun i => rfl, ?_, fun i => ?_, fun i => Nat.zero_le _, rfl⟩
  · intro i c hc
    cases hc
  · match i with
    | 0 => rfl
    | 1 => rfl

/-- Every run of the room in whole calls is one in sections. -/
theorem roomRun_sections {rands : Rands} {g : Globals F} {ls : List (RoomStep F)}
    (h : System.run (roomStep m) (roomStart m rands g) ls = some r) :
    ∃ ks s, System.run (matchStep m) (matchBegin m rands g) ks = some s ∧ BetweenCalls s r := by
  refine System.invariant (I := fun r => ∃ ks s,
    System.run (matchStep m) (matchBegin m rands g) ks = some s ∧ BetweenCalls s r) ?_
    ⟨[], _, rfl, .start rands g⟩ h
  rintro r l r' ⟨ks, s, hs, hbetween⟩ hstep
  obtain ⟨ls, t, ht, hnext⟩ := hbetween.step (MatchInv.of_run hs).up hstep
  refine ⟨ks ++ ls, t, ?_, hnext⟩
  rw [System.run_append, hs]
  exact ht

end

end CPong
