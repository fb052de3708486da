import CPong.InputOverflow
import CPong.MatchSections

/-!
# Where the input goes

Every frame in which a key is held ends up in exactly one place: in an accumulator, in a packet,
on a paddle, or among what the start of a round throws away, however the sections of the threads
come after each other.
-/

namespace CPong

set_option autoImplicit false

open Lib

/-- The input of one frame, with the round of the client in which `receive_paddle_inputs` took it. -/
structure Press where
  round : Nat
  ms : I32
deriving DecidableEq, Repr

/-- The input that a packet carries, with the round in which it was composed. -/
structure Parcel where
  round : Nat
  presses : List Press
deriving DecidableEq, Repr

/-- Where the input of one player is. -/
structure Ledger where
  pressed : List Press
  /-- in the client's accumulator -/
  held : List Press
  /-- zeroed by the `PACKET_INIT` of the given round -/
  dropped : List (Nat × Press)
  flight : List Parcel
  /-- received in the given round of the server, with another sync -/
  refused : List (Nat × Press)
  /-- past the check of the sync in `on_input_ready` -/
  checked : List Press
  /-- in the server's accumulator -/
  waiting : List Press
  /-- taken by a tick of the given round -/
  applied : List (Nat × Press)
  /-- what the accumulator held before the game -/
  leftover : I32
deriving DecidableEq, Repr

def Ledger.start (leftover : I32) : Ledger := ⟨[], [], [], [], [], [], [], [], leftover⟩

def Ledger.places (w : Ledger) : List Press :=
  w.held ++ w.dropped.map Prod.snd ++ w.flight.flatMap Parcel.presses ++
    w.refused.map Prod.snd ++ w.checked ++ w.waiting ++ w.applied.map Prod.snd

/-- A frame without a key leaves no trace. -/
def Ledger.press (w : Ledger) (press : Press) : Ledger :=
  if press.ms = 0 then w
  else { w with pressed := w.pressed ++ [press], held := w.held ++ [press] }

def msSum (presses : List Press) : I32 := (presses.map Press.ms).sum

/-- A variable that exists holds the sum, and one that does not leaves nothing to sum up. -/
def HoldsSum : Option I32 → List Press → Prop
  | none, presses => presses = []
  | some ms, presses => ms = msSum presses

section
variable {F : Type}

def serverRound (s : MatchThreads F) : Nat := s.server.round

def clientRound (i : Fin 2) (s : MatchThreads F) : Nat :=
  match s.clients i with
  | none => 0
  | some c => c.round

/-- The input of the client `id` that `on_input_ready` has accepted but not yet added to an
accumulator. -/
def RoundServer.checkedFor (s : RoundServer F) (id : I32) : Option I32 :=
  match s.receiver with
  | .checked id' inputAccMs _ => if id' = id then some inputAccMs else none
  | _ => none

def pressMs (up down : Bool) (deltaTime : I32) : I32 :=
  BitVec.ofInt 32 (inputDirection up down) * deltaTime

/-- The ledger of player `i` after a section that can be entered in the state `s`. -/
def Ledger.next (i : Fin 2) (s : MatchThreads F) (w : Ledger) : MatchSection F → Ledger
  | .check j _ =>
    if j = i then
      match w.flight, s.up i with
      | parcel :: flight, p :: _ =>
        if p.sync = s.server.globals.ssync then
          { w with flight := flight, checked := parcel.presses }
        else
          { w with
            flight := flight
            refused := w.refused ++ parcel.presses.map (Prod.mk (serverRound s)) }
      | _, _ => w
    else w
  | .accumulate => { w with checked := [], waiting := w.waiting ++ w.checked }
  | .inputs =>
    { w with
      waiting := []
      applied := w.applied ++ w.waiting.map (Prod.mk (serverRound s))
      leftover := 0 }
  | .zeroInput j =>
    if j = i then
      { w with
        held := []
        dropped := w.dropped ++ w.held.map (Prod.mk (clientRound i s)) }
    else w
  | .paddleInputs j up down deltaTime =>
    if j = i then w.press ⟨clientRound i s, pressMs up down deltaTime⟩ else w
  | .network j =>
    if j = i then { w with held := [], flight := w.flight ++ [⟨clientRound i s, w.held⟩] } else w
  | .advance _ | .score _ | .announce | .receive _ | .setSync _ | .localState .. => w

variable [Field F] [LinearOrder F] [FloorRing F] [Libm F] (m : Match F)

/-- The match with the ledger of player `i` beside it. -/
def ledgerStep (i : Fin 2) (c : MatchThreads F × Ledger) (l : MatchSection F) :
    Option (MatchThreads F × Ledger) :=
  (matchStep m c.1 l).map fun t => (t, c.2.next i c.1 l)

def ledgerStart (rands : Rands) (g : Globals F) (i : Fin 2) : MatchThreads F × Ledger :=
  (matchBegin m rands g, .start (inputOf g i))

/-- What a packet under way carries. -/
structure Carries (ssync : I8) (parcel : Parcel) (p : Packet F) : Prop where
  sync : p.sync = ssync + BitVec.ofNat 8 parcel.round
  inputAccMs : p.data.inputAccMs = msSum parcel.presses

/-- All input of player `i` is where the ledger says, and none is anywhere twice. -/
structure Accounted (ssync : I8) (i : Fin 2) (s : MatchThreads F) (w : Ledger) : Prop where
  all : w.pressed.Perm w.places
  held : HoldsSum ((s.clients i).map fun c => c.args.inputAccMs) w.held
  flight : List.Forall₂ (Carries ssync) w.flight (s.up i)
  flightRound : ∀ parcel ∈ w.flight, parcel.round ≤ serverRound s
  checked : HoldsSum (s.server.checkedFor (m.room.clients i)) w.checked
  waiting : inputOf s.server.globals i = w.leftover + msSum w.waiting

end

section
variable {F : Type}

theorem msSum_append (l r : List Press) : msSum (l ++ r) = msSum l + msSum r := by
  unfold msSum
  rw [List.map_append, List.sum_append]

theorem map_snd_map_mk (n : Nat) (presses : List Press) :
    (presses.map (Prod.mk n)).map Prod.snd = presses := by
  rw [List.map_map]
  exact List.map_id'' (fun _ => rfl) presses

theorem clientRound_of {i : Fin 2} {s : MatchThreads F} {c : ClientThreads F}
    (h : s.clients i = some c) : clientRound i s = c.round := by
  unfold clientRound
  rw [h]

end

section
variable {F : Type} [Field F] [LinearOrder F] [FloorRing F] [Libm F] {m : Match F}
  {s t : MatchThreads F} {i : Fin 2} {ssync : I8} {w : Ledger}

omit [Field F] [LinearOrder F] [FloorRing F] [Libm F] in
theorem Accounted.count (h : Accounted m ssync i s w) (press : Press) :
    w.pressed.count press = w.held.count press + (w.dropped.map Prod.snd).count press +
      (w.flight.flatMap Parcel.presses).count press + (w.refused.map Prod.snd).count press +
      w.checked.count press + w.waiting.count press + (w.applied.map Prod.snd).count press := by
  rw [List.perm_iff_count.mp h.all press]
  simp only [Ledger.places, List.count_append]

theorem Accounted.start (rands : Rands) (g : Globals F) (i : Fin 2) :
    Accounted m g.ssync i (matchBegin m rands g) (.start (inputOf g i)) where
  all := .refl _
  held := rfl
  flight := .nil
  flightRound _ h := absurd h List.not_mem_nil
  checked := rfl
  waiting := (add_zero (inputOf g i)).symm

omit [Field F] [LinearOrder F] [FloorRing F] [Libm F] in
/-- Nothing of the player's input moves in a section of another thread's business. -/
theorem Accounted.of_same (h : Accounted m ssync i s w)
    (hheld : (t.clients i).map (fun c => c.args.inputAccMs) =
      (s.clients i).map fun c => c.args.inputAccMs)
    (hup : t.up i = s.up i) (hround : serverRound s ≤ serverRound t)
    (hchecked : t.server.checkedFor (m.room.clients i) = s.server.checkedFor (m.room.clients i))
    (hinput : inputOf t.server.globals i = inputOf s.server.globals i) :
    Accounted m ssync i t w := by
  refine ⟨h.all, ?_, ?_, ?_, ?_, ?_⟩
  · rw [hheld]
    exact h.held
  · rw [hup]
    exact h.flight
  · intro parcel hparcel
    exact (h.flightRound parcel hparcel).trans hround
  · rw [hchecked]
    exact h.checked
  · rw [hinput]
    exact h.waiting

omit [LinearOrder F] [FloorRing F] [Libm F] in
/-- No client is ahead of the server. -/
theorem MatchInv.clientRound_le {room : Room} (h : MatchInv room ssync s) (i : Fin 2) :
    clientRound i s ≤ serverRound s := by
  have hseen := (h.down i).le
  unfold clientRound serverRound
  cases hc : s.clients i with
  | none => exact Nat.zero_le _
  | some c =>
    rw [hc] at hseen
    have hlo := c.round_le_fieldRound
    have hhi : s.server.announced ≤ s.server.round + 1 := by
      unfold RoundServer.announced
      split
      · exact Nat.le_succ _
      · exact le_rfl
    simp only [seenBy] at hseen ⊢
    omega

theorem Accounted.check {garbage : Packet F} (hm : MatchInv m.room ssync s)
    (h : Accounted m ssync i s w) (hstep : matchStep m s (.check i garbage) = some t) :
    Accounted m ssync i t (w.next i s (.check i garbage)) := by
  obtain ⟨p, rest, receiver, hup, hidle, hreceiver, rfl⟩ := matchStep_check hstep (hm.up i)
  have hcarried := h.flight
  rw [hup] at hcarried
  obtain ⟨parcel, flight, hp, hrest, hw⟩ := List.forall₂_cons_right_iff.mp hcarried
  have hnone : w.checked = [] := by
    have hchecked := h.checked
    simp only [RoundServer.checkedFor, hidle] at hchecked
    exact hchecked
  have hrounds : ∀ parcel' ∈ flight, parcel'.round ≤ serverRound s := fun parcel' hparcel =>
    h.flightRound parcel' (by rw [hw]; exact List.mem_cons_of_mem _ hparcel)
  have hnext : List.Forall₂ (Carries ssync) flight (Function.update s.up i rest i) := by
    rw [Function.update_self]
    exact hrest
  rcases hreceiver with ⟨hsync, rfl⟩ | ⟨hsync, rfl⟩
  · have hledger : w.next i s (.check i garbage) =
        { w with flight := flight, checked := parcel.presses } := by
      simp only [Ledger.next, hw, hup, if_true, if_pos hsync]
    rw [hledger]
    refine ⟨List.perm_iff_count.mpr fun press => ?_, h.held, hnext, hrounds, ?_, h.waiting⟩
    · have hcount := h.count press
      rw [hw, hnone, List.flatMap_cons] at hcount
      simp only [Ledger.places, List.count_append, List.count_nil] at hcount ⊢
      omega
    · simp only [RoundServer.checkedFor, if_true]
      exact hp.inputAccMs
  · have hledger : w.next i s (.check i garbage) =
        { w with
          flight := flight
          refused := w.refused ++ parcel.presses.map (Prod.mk (serverRound s)) } := by
      simp only [Ledger.next, hw, hup, if_true, if_neg hsync]
    rw [hledger]
    refine ⟨List.perm_iff_count.mpr fun press => ?_, h.held, hnext, hrounds, ?_, h.waiting⟩
    · have hcount := h.count press
      rw [hw, List.flatMap_cons] at hcount
      simp only [Ledger.places, List.map_append, map_snd_map_mk, List.count_append] at hcount ⊢
      omega
    · exact hnone

theorem Accounted.check_other {j : Fin 2} {garbage : Packet F}
    (hdistinct : m.room.clients 0 ≠ m.room.clients 1) (hm : MatchInv m.room ssync s)
    (h : Accounted m ssync i s w) (hj : j ≠ i)
    (hstep : matchStep m s (.check j garbage) = some t) :
    Accounted m ssync i t (w.next i s (.check j garbage)) := by
  obtain ⟨p, rest, receiver, hup, hidle, hreceiver, rfl⟩ := matchStep_check hstep (hm.up j)
  have hledger : w.next i s (.check j garbage) = w := if_neg hj
  have hids : m.room.clients j ≠ m.room.clients i := by
    match i, j, hj with
    | 0, 0, hj => exact absurd rfl hj
    | 1, 1, hj => exact absurd rfl hj
    | 0, 1, _ => exact hdistinct.symm
    | 1, 0, _ => exact hdistinct
  rw [hledger]
  refine h.of_same rfl (Function.update_of_ne (Ne.symm hj) ..) le_rfl ?_ rfl
  rcases hreceiver with ⟨-, rfl⟩ | ⟨-, rfl⟩
  · simp only [RoundServer.checkedFor, hidle, if_neg hids]
  · simp only [RoundServer.checkedFor, hidle]

/-- What passed the check is added to the accumulator of the player that sent it. -/
theorem Accounted.accumulate (hdistinct : m.room.clients 0 ≠ m.room.clients 1)
    (hm : MatchInv m.room ssync s) (h : Accounted m ssync i s w)
    (hstep : matchStep m s .accumulate = some t) :
    Accounted m ssync i t (w.next i s .accumulate) := by
  obtain ⟨server, hserver, rfl⟩ := onServer_eq_some hstep
  obtain ⟨id, inputAccMs, tag, hreceiver, rfl⟩ := roundStep_accumulate hserver
  have hround := s.server.credit_round id ⟨tag, inputAccMs⟩
  have hcredits : Credits s.server.globals.state.playerIds id i ↔ id = m.room.clients i := by
    rw [hm.server.ids]
    unfold Credits
    constructor
    · exact fun hboth => hboth.1.symm
    · rintro rfl
      refine ⟨rfl, fun hi => ?_⟩
      rw [hi]
      exact hdistinct
  have hwaiting : inputOf (onInputReadyAccumulate s.server.globals id inputAccMs) i =
      w.leftover + msSum (w.waiting ++ w.checked) := by
    have hchecked := h.checked
    simp only [RoundServer.checkedFor, hreceiver] at hchecked
    rw [inputOf_accumulate, msSum_append, ← add_assoc, ← h.waiting]
    by_cases hid : id = m.room.clients i
    · rw [if_pos hid] at hchecked
      rw [if_pos (hcredits.mpr hid)]
      exact congrArg _ hchecked
    · rw [if_neg hid] at hchecked
      rw [if_neg fun hc => hid (hcredits.mp hc), show w.checked = [] from hchecked]
      exact (add_zero _).symm
  refine ⟨List.perm_iff_count.mpr fun press => ?_, h.held, h.flight, fun parcel hparcel => ?_, rfl,
    hwaiting⟩
  · have hcount := h.count press
    simp only [Ledger.next, Ledger.places, List.count_append, List.count_nil] at hcount ⊢
    omega
  · exact (h.flightRound parcel hparcel).trans hround.ge

theorem Accounted.inputs (h : Accounted m ssync i s w)
    (hstep : matchStep m s .inputs = some t) : Accounted m ssync i t (w.next i s .inputs) := by
  obtain ⟨server, hserver, rfl⟩ := onServer_eq_some hstep
  obtain ⟨-, rfl⟩ := roundStep_inputs hserver
  refine ⟨List.perm_iff_count.mpr fun press => ?_, h.held, h.flight, h.flightRound, h.checked, ?_⟩
  · have hcount := h.count press
    simp only [Ledger.next, Ledger.places, List.map_append, map_snd_map_mk, List.count_append,
      List.count_nil] at hcount ⊢
    omega
  · match i with
    | 0 => rfl
    | 1 => rfl

omit [Field F] [LinearOrder F] [FloorRing F] [Libm F] in
theorem Accounted.update {j : Fin 2} {c c' : ClientThreads F} (h : Accounted m ssync i s w)
    (hc : s.clients j = some c) (hsame : c'.args.inputAccMs = c.args.inputAccMs) :
    Accounted m ssync i { s with clients := Function.update s.clients j (some c') } w := by
  refine h.of_same ?_ rfl le_rfl rfl rfl
  by_cases hj : j = i
  · subst hj
    simp only [Function.update_self, hc, Option.map_some, hsame]
  · simp only [Function.update_of_ne (Ne.symm hj)]

theorem Accounted.onClient {j : Fin 2} {l : ClientSection F} (h : Accounted m ssync i s w)
    (hstep : onClient s j l = some t)
    (hsame : ∀ c c', clientStep c l = some c' → c'.args.inputAccMs = c.args.inputAccMs) :
    Accounted m ssync i t w := by
  obtain ⟨c, c', hc, hnext, rfl⟩ := onClient_eq_some hstep
  exact h.update hc (hsame c c' hnext)

omit [Libm F] in
/-- The input is not touched by what a client takes from its stream, and there is none before the
first packet. -/
theorem Taken.holdsSum {p : Packet F} {old : Option (ClientThreads F)} {client : ClientThreads F}
    {presses : List Press} (htaken : Taken m i p old client)
    (h : HoldsSum (old.map fun c => c.args.inputAccMs) presses) :
    HoldsSum (some client.args.inputAccMs) presses := by
  cases htaken with
  | first htype =>
    change presses = [] at h
    rw [h]
    rfl
  | state htype hidle hargs =>
    rw [hargs]
    exact h
  | init htype hidle hargs =>
    rw [hargs]
    exact h

theorem Accounted.receive {j : Fin 2} (hm : MatchInv m.room ssync s) (h : Accounted m ssync i s w)
    (hstep : matchStep m s (.receive j) = some t) : Accounted m ssync i t w := by
  obtain ⟨p, rest, client, -, htaken, rfl⟩ := hm.taken hstep
  by_cases hj : j = i
  · subst hj
    refine ⟨h.all, ?_, h.flight, h.flightRound, h.checked, h.waiting⟩
    simp only [Function.update_self, Option.map_some]
    exact htaken.holdsSum h.held
  · refine h.of_same ?_ rfl le_rfl rfl rfl
    simp only [Function.update_of_ne (Ne.symm hj)]

/-- The start of a round takes from the client what it has not sent. -/
theorem Accounted.zeroInput {j : Fin 2} (h : Accounted m ssync i s w)
    (hstep : matchStep m s (.zeroInput j) = some t) :
    Accounted m ssync i t (w.next i s (.zeroInput j)) := by
  obtain ⟨c, c', hc, hnext, rfl⟩ := onClient_eq_some hstep
  obtain ⟨stale, -, rfl⟩ := clientStep_zeroInput hnext
  by_cases hj : j = i
  · subst hj
    have hledger : w.next j s (.zeroInput j) = { w with
        held := []
        dropped := w.dropped ++ w.held.map (Prod.mk (clientRound j s)) } := if_pos rfl
    rw [hledger]
    refine ⟨List.perm_iff_count.mpr fun press => ?_, ?_, h.flight, h.flightRound, h.checked,
      h.waiting⟩
    · have hcount := h.count press
      simp only [Ledger.places, List.map_append, map_snd_map_mk, List.count_append,
        List.count_nil] at hcount ⊢
      omega
    · simp only [Function.update_self, Option.map_some]
      rfl
  · have hledger : w.next i s (.zeroInput j) = w := if_neg hj
    rw [hledger]
    refine h.of_same ?_ rfl le_rfl rfl rfl
    simp only [Function.update_of_ne (Ne.symm hj)]

theorem Accounted.paddleInputs {j : Fin 2} {up down : Bool} {deltaTime : I32}
    (h : Accounted m ssync i s w)
    (hstep : matchStep m s (.paddleInputs j up down deltaTime) = some t) :
    Accounted m ssync i t (w.next i s (.paddleInputs j up down deltaTime)) := by
  obtain ⟨c, c', hc, hnext, rfl⟩ := onClient_eq_some hstep
  obtain ⟨-, rfl⟩ := clientStep_paddleInputs hnext
  by_cases hj : j = i
  · subst hj
    have hledger : w.next j s (.paddleInputs j up down deltaTime) =
        w.press ⟨clientRound j s, pressMs up down deltaTime⟩ := if_pos rfl
    have hheld := h.held
    rw [hc] at hheld
    change c.args.inputAccMs = msSum w.held at hheld
    rw [hledger]
    unfold Ledger.press
    by_cases hzero : pressMs up down deltaTime = 0
    · rw [if_pos hzero]
      refine h.update hc ?_
      change c.args.inputAccMs + pressMs up down deltaTime = _
      rw [hzero, add_zero]
    · rw [if_neg hzero]
      refine ⟨List.perm_iff_count.mpr fun press => ?_, ?_, h.flight, h.flightRound, h.checked,
        h.waiting⟩
      · have hcount := h.count press
        simp only [Ledger.places, List.count_append] at hcount ⊢
        omega
      · simp only [Function.update_self, Option.map_some]
        change c.args.inputAccMs + pressMs up down deltaTime = _
        rw [msSum_append, ← hheld]
        simp [msSum]
  · have hledger : w.next i s (.paddleInputs j up down deltaTime) = w := if_neg hj
    rw [hledger]
    refine h.of_same ?_ rfl le_rfl rfl rfl
    simp only [Function.update_of_ne (Ne.symm hj)]

theorem Accounted.network {j : Fin 2} (hm : MatchInv m.room ssync s) (h : Accounted m ssync i s w)
    (hstep : matchStep m s (.network j) = some t) :
    Accounted m ssync i t (w.next i s (.network j)) := by
  obtain ⟨c, hc, rfl⟩ := matchStep_network hstep
  by_cases hj : j = i
  · subst hj
    have hledger : w.next j s (.network j) =
        { w with held := [], flight := w.flight ++ [⟨clientRound j s, w.held⟩] } := if_pos rfl
    have hheld := h.held
    rw [hc] at hheld
    change c.args.inputAccMs = msSum w.held at hheld
    rw [hledger]
    refine ⟨List.perm_iff_count.mpr fun press => ?_, ?_, ?_, fun parcel hparcel => ?_, h.checked,
      h.waiting⟩
    · have hcount := h.count press
      simp only [Ledger.places, List.flatMap_append, List.flatMap_cons, List.flatMap_nil,
        List.append_nil, List.count_append, List.count_nil] at hcount ⊢
      omega
    · simp only [Function.update_self, Option.map_some]
      rfl
    · simp only [Function.update_self]
      refine List.rel_append h.flight (.cons ⟨?_, ?_⟩ .nil)
      · rw [clientRound_of hc]
        exact (hm.clients j c hc).sync
      · rw [← hheld]
        exact PacketData.inputAccMs_setInputAccMs _ _
    · rcases List.mem_append.mp hparcel with hold | hnew
      · exact h.flightRound parcel hold
      · rw [List.mem_singleton.mp hnew]
        exact hm.clientRound_le j
  · have hledger : w.next i s (.network j) = w := if_neg hj
    rw [hledger]
    refine h.of_same ?_ ?_ le_rfl rfl rfl
    · simp only [Function.update_of_ne (Ne.symm hj)]
    · simp only [Function.update_of_ne (Ne.symm hj)]

theorem Accounted.step {l : MatchSection F} (hdistinct : m.room.clients 0 ≠ m.room.clients 1)
    (hm : MatchInv m.room ssync s) (h : Accounted m ssync i s w)
    (hstep : matchStep m s l = some t) : Accounted m ssync i t (w.next i s l) := by
  cases l with
  | check j garbage =>
    by_cases hj : j = i
    · subst hj
      exact h.check hm hstep
    · exact h.check_other hdistinct hm hj hstep
  | accumulate => exact h.accumulate hdistinct hm hstep
  | inputs => exact h.inputs hstep
  | advance tick =>
    obtain ⟨server, hserver, rfl⟩ := onServer_eq_some hstep
    obtain ⟨upds, ball, scoredIndex, -, -, rfl⟩ := roundStep_advance hserver
    exact h.of_same rfl rfl le_rfl rfl rfl
  | score rands =>
    obtain ⟨server, hserver, rfl⟩ := onServer_eq_some hstep
    obtain ⟨scoredIndex, j, -, -, rfl⟩ := roundStep_score hserver
    exact h.of_same rfl rfl (Nat.le_succ _) rfl rfl
  | announce =>
    obtain ⟨k, -, rfl⟩ := matchStep_announce hstep
    exact h.of_same rfl rfl le_rfl rfl rfl
  | receive j => exact h.receive hm hstep
  | setSync j =>
    refine h.onClient hstep fun c c' hnext => ?_
    obtain ⟨sync, -, rfl⟩ := clientStep_setSync hnext
    rfl
  | zeroInput j => exact h.zeroInput hstep
  | paddleInputs j up down deltaTime => exact h.paddleInputs hstep
  | localState j fuel =>
    refine h.onClient hstep fun c c' hnext => ?_
    obtain ⟨_, _, localState, -, -, rfl⟩ := clientStep_localState hnext
    rfl
  | network j => exact h.network hm hstep

end

end CPong
