import CPong.Presses

/-!
# The rounds of the input

Whether input is used, sent or thrown away in its own round depends on three sections: the one
that ends a round of the server, and what the client sends and gathers between the setting of
`*sync` and the zeroing of its accumulator.
-/

namespace CPong

set_option autoImplicit false

open Lib

/-- The syncs of the two rounds are the same `int8_t`. -/
def SameSync (round current : Nat) : Prop := ∃ n, current = round + 256 * n

def InitReceipt.zeroing : InitReceipt → Bool
  | .synced _ => true
  | _ => false

section
variable {F : Type}

/-- Client `i` has set `*sync` for a new round and not yet zeroed its accumulator. -/
def zeroing (i : Fin 2) (s : MatchThreads F) : Bool :=
  match s.clients i with
  | none => false
  | some c => c.receipt.zeroing

/-- What has got through is of the round it moved the paddle in, or else a multiple of 256 rounds
old; what the server has refused is older, and what the client has dropped is of the round before
the one that began. -/
structure RoundsKept (i : Fin 2) (s : MatchThreads F) (w : Ledger) : Prop where
  held : ∀ press ∈ w.held, press.round + (zeroing i s).toNat = clientRound i s
  dropped : ∀ c ∈ w.dropped, c.1 = c.2.round + 1 ∧ c.1 ≤ clientRound i s
  flight : ∀ parcel ∈ w.flight, ∀ press ∈ parcel.presses, press.round = parcel.round
  refused : ∀ c ∈ w.refused, c.2.round < c.1 ∧ ¬ SameSync c.2.round c.1 ∧ c.1 ≤ serverRound s
  checked : ∀ press ∈ w.checked, SameSync press.round (serverRound s)
  waiting : ∀ press ∈ w.waiting, SameSync press.round (serverRound s)
  applied : ∀ c ∈ w.applied, SameSync c.2.round c.1 ∧ c.1 ≤ serverRound s

/-- A round of the server ends when all accepted input has been applied, and between the setting
of `*sync` and the zeroing of the accumulator the client neither sends old input nor gathers
new. -/
def KeepsRounds (i : Fin 2) (c : MatchThreads F × Ledger) : MatchSection F → Prop
  | .score _ => c.2.checked = [] ∧ c.2.waiting = []
  | .network j => j = i → zeroing i c.1 = true → c.2.held = []
  | .paddleInputs j up down deltaTime =>
    j = i → zeroing i c.1 = true → pressMs up down deltaTime = 0
  | _ => True

theorem sameSync_iff {round current : Nat} (h : round ≤ current) :
    SameSync round current ↔ BitVec.ofNat 8 round = BitVec.ofNat 8 current := by
  rw [← BitVec.toNat_inj, BitVec.toNat_ofNat, BitVec.toNat_ofNat]
  constructor
  · rintro ⟨n, rfl⟩
    omega
  · intro hmod
    refine ⟨(current - round) / 256, ?_⟩
    omega

theorem not_sameSync_succ {round current : Nat} (h : SameSync round current) :
    ¬ SameSync round (current + 1) := by
  obtain ⟨n, rfl⟩ := h
  rintro ⟨k, hk⟩
  omega

theorem zeroing_of {i : Fin 2} {s : MatchThreads F} {c : ClientThreads F}
    (h : s.clients i = some c) : zeroing i s = c.receipt.zeroing := by
  unfold zeroing
  rw [h]

end

section
variable {F : Type} [Field F] [LinearOrder F] [FloorRing F] [Libm F] {m : Match F}
  {s t : MatchThreads F} {i : Fin 2} {ssync : I8} {w : Ledger}

omit [Field F] [LinearOrder F] [FloorRing F] [Libm F] in
theorem RoundsKept.of_same (h : RoundsKept i s w) (hclient : clientRound i t = clientRound i s)
    (hzeroing : zeroing i t = zeroing i s) (hserver : serverRound t = serverRound s) :
    RoundsKept i t w := by
  refine ⟨?_, ?_, h.flight, ?_, ?_, ?_, ?_⟩
  · rw [hclient, hzeroing]
    exact h.held
  · rw [hclient]
    exact h.dropped
  · rw [hserver]
    exact h.refused
  · rw [hserver]
    exact h.checked
  · rw [hserver]
    exact h.waiting
  · rw [hserver]
    exact h.applied

/-- A packet is accepted exactly if its round and that of the server have the same sync. -/
theorem RoundsKept.check {garbage : Packet F} (hm : MatchInv m.room ssync s)
    (hw : Accounted m ssync i s w) (h : RoundsKept i s w)
    (hstep : matchStep m s (.check i garbage) = some t) :
    RoundsKept i t (w.next i s (.check i garbage)) := by
  obtain ⟨p, rest, receiver, hup, hidle, -, rfl⟩ := matchStep_check hstep (hm.up i)
  have hcarried := hw.flight
  rw [hup] at hcarried
  obtain ⟨parcel, flight, hp, hrest, hflight⟩ := List.forall₂_cons_right_iff.mp hcarried
  have hmem : parcel ∈ w.flight := by
    rw [hflight]
    exact List.mem_cons_self
  have hle := hw.flightRound parcel hmem
  have hrounds := h.flight parcel hmem
  have hlater : ∀ parcel' ∈ flight, ∀ press ∈ parcel'.presses, press.round = parcel'.round :=
    fun parcel' hparcel => h.flight parcel' (by rw [hflight]; exact List.mem_cons_of_mem _ hparcel)
  have hsame : SameSync parcel.round (serverRound s) ↔ p.sync = s.server.globals.ssync := by
    rw [sameSync_iff hle, hp.sync, hm.server.sync]
    exact (add_right_inj ssync).symm
  by_cases hsync : p.sync = s.server.globals.ssync
  · have hledger : w.next i s (.check i garbage) =
        { w with flight := flight, checked := parcel.presses } := by
      simp only [Ledger.next, hflight, hup, if_true, if_pos hsync]
    rw [hledger]
    refine ⟨h.held, h.dropped, hlater, h.refused, fun press hpress => ?_, h.waiting, h.applied⟩
    rw [hrounds press hpress]
    exact hsame.mpr hsync
  · have hledger : w.next i s (.check i garbage) =
        { w with
          flight := flight
          refused := w.refused ++ parcel.presses.map (Prod.mk (serverRound s)) } := by
      simp only [Ledger.next, hflight, hup, if_true, if_neg hsync]
    rw [hledger]
    refine ⟨h.held, h.dropped, hlater, fun c hc => ?_, h.checked, h.waiting, h.applied⟩
    rcases List.mem_append.mp hc with hold | hnew
    · exact h.refused c hold
    · obtain ⟨press, hpress, rfl⟩ := List.mem_map.mp hnew
      dsimp only
      rw [hrounds press hpress]
      have hother : ¬ SameSync parcel.round (serverRound s) := fun heq => hsync (hsame.mp heq)
      exact ⟨lt_of_le_of_ne hle fun heq => hother ⟨0, heq.symm⟩, hother, le_rfl⟩

/-- The round of the server moves on past nothing that it has accepted. -/
theorem RoundsKept.score {rands : Rands} (h : RoundsKept i s w)
    (hC : KeepsRounds i (s, w) (.score rands))
    (hstep : matchStep m s (.score rands) = some t) : RoundsKept i t w := by
  obtain ⟨hchecked, hwaiting⟩ := hC
  obtain ⟨server, hserver, rfl⟩ := onServer_eq_some hstep
  obtain ⟨scoredIndex, j, -, -, rfl⟩ := roundStep_score hserver
  have hle : ∀ n, n ≤ serverRound s → n ≤ s.server.round + 1 := fun n hn => hn.trans (Nat.le_succ _)
  refine ⟨h.held, h.dropped, h.flight, fun c hc => ?_, ?_, ?_, fun c hc => ?_⟩
  · obtain ⟨hlt, hother, hpast⟩ := h.refused c hc
    exact ⟨hlt, hother, hle _ hpast⟩
  · rw [show w.checked = [] from hchecked]
    exact fun press hpress => absurd hpress List.not_mem_nil
  · rw [show w.waiting = [] from hwaiting]
    exact fun press hpress => absurd hpress List.not_mem_nil
  · obtain ⟨hsame, hpast⟩ := h.applied c hc
    exact ⟨hsame, hle _ hpast⟩

theorem RoundsKept.inputs (h : RoundsKept i s w) (hstep : matchStep m s .inputs = some t) :
    RoundsKept i t (w.next i s .inputs) := by
  obtain ⟨server, hserver, rfl⟩ := onServer_eq_some hstep
  obtain ⟨-, rfl⟩ := roundStep_inputs hserver
  refine ⟨h.held, h.dropped, h.flight, h.refused, h.checked,
    fun press hpress => absurd hpress List.not_mem_nil, fun c hc => ?_⟩
  rcases List.mem_append.mp hc with hold | hnew
  · exact h.applied c hold
  · obtain ⟨press, hpress, rfl⟩ := List.mem_map.mp hnew
    exact ⟨h.waiting press hpress, le_rfl⟩

theorem RoundsKept.accumulate (h : RoundsKept i s w)
    (hstep : matchStep m s .accumulate = some t) : RoundsKept i t (w.next i s .accumulate) := by
  obtain ⟨server, hserver, rfl⟩ := onServer_eq_some hstep
  obtain ⟨id, inputAccMs, tag, -, rfl⟩ := roundStep_accumulate hserver
  have hkept : RoundsKept i s (w.next i s .accumulate) := by
    refine ⟨h.held, h.dropped, h.flight, h.refused,
      fun press hpress => absurd hpress List.not_mem_nil, fun press hpress => ?_, h.applied⟩
    rcases List.mem_append.mp hpress with hold | hnew
    · exact h.waiting press hold
    · exact h.checked press hnew
  exact hkept.of_same rfl rfl (RoundServer.credit_round ..)

omit [Field F] [LinearOrder F] [FloorRing F] [Libm F] in
theorem RoundsKept.update {j : Fin 2} {c c' : ClientThreads F} (h : RoundsKept i s w)
    (hc : s.clients j = some c) (hround : c'.round = c.round)
    (hzeroing : c'.receipt.zeroing = c.receipt.zeroing) :
    RoundsKept i { s with clients := Function.update s.clients j (some c') } w := by
  by_cases hj : j = i
  · subst hj
    refine h.of_same ?_ ?_ rfl
    · rw [clientRound_of hc, clientRound_of (Function.update_self ..), hround]
    · rw [zeroing_of hc, zeroing_of (Function.update_self ..), hzeroing]
  · refine h.of_same ?_ ?_ rfl
    · simp only [clientRound, Function.update_of_ne (Ne.symm hj)]
    · simp only [zeroing, Function.update_of_ne (Ne.symm hj)]

omit [Libm F] in
/-- No round of the client begins before it sets `*sync`. -/
theorem Taken.round {p : Packet F} {client : ClientThreads F}
    (htaken : Taken m i p (s.clients i) client) :
    client.round = clientRound i s ∧ client.receipt.zeroing = zeroing i s := by
  unfold clientRound zeroing
  generalize s.clients i = old at htaken
  cases htaken with
  | first htype => exact ⟨rfl, rfl⟩
  | state htype hidle hargs => exact ⟨rfl, rfl⟩
  | init htype hidle hargs =>
    refine ⟨rfl, ?_⟩
    simp only [hidle]
    rfl

theorem RoundsKept.receive {j : Fin 2} (hm : MatchInv m.room ssync s) (h : RoundsKept i s w)
    (hstep : matchStep m s (.receive j) = some t) : RoundsKept i t w := by
  obtain ⟨p, rest, client, -, htaken, rfl⟩ := hm.taken hstep
  by_cases hj : j = i
  · subst hj
    have hsame := htaken.round
    refine h.of_same ?_ ?_ rfl
    · rw [clientRound_of (Function.update_self ..), hsame.1]
    · rw [zeroing_of (Function.update_self ..), hsame.2]
  · refine h.of_same ?_ ?_ rfl
    · simp only [clientRound, Function.update_of_ne (Ne.symm hj)]
    · simp only [zeroing, Function.update_of_ne (Ne.symm hj)]

/-- From the setting of `*sync` on, what the client still holds is of the round before. -/
theorem RoundsKept.setSync {j : Fin 2} (h : RoundsKept i s w)
    (hstep : matchStep m s (.setSync j) = some t) : RoundsKept i t w := by
  obtain ⟨c, c', hc, hnext, rfl⟩ := onClient_eq_some hstep
  obtain ⟨sync, hreplaced, rfl⟩ := clientStep_setSync hnext
  by_cases hj : j = i
  · subst hj
    have hround := clientRound_of hc
    have hzeroing : zeroing j s = false := by
      rw [zeroing_of hc, hreplaced]
      rfl
    refine ⟨fun press hpress => ?_, fun c hdropped => ?_, h.flight, h.refused, h.checked, h.waiting,
      h.applied⟩
    · have hheld := h.held press hpress
      rw [hzeroing, hround] at hheld
      rw [clientRound_of (Function.update_self ..), zeroing_of (Function.update_self ..)]
      exact congrArg Nat.succ hheld
    · obtain ⟨hbefore, hle⟩ := h.dropped c hdropped
      rw [hround] at hle
      refine ⟨hbefore, ?_⟩
      rw [clientRound_of (Function.update_self ..)]
      exact hle.trans (Nat.le_succ _)
  · refine h.of_same ?_ ?_ rfl
    · simp only [clientRound, Function.update_of_ne (Ne.symm hj)]
    · simp only [zeroing, Function.update_of_ne (Ne.symm hj)]

theorem RoundsKept.zeroInput {j : Fin 2} (h : RoundsKept i s w)
    (hstep : matchStep m s (.zeroInput j) = some t) :
    RoundsKept i t (w.next i s (.zeroInput j)) := by
  obtain ⟨c, c', hc, hnext, rfl⟩ := onClient_eq_some hstep
  obtain ⟨stale, hsynced, rfl⟩ := clientStep_zeroInput hnext
  by_cases hj : j = i
  · subst hj
    have hround := clientRound_of hc
    have hzeroing : zeroing j s = true := by
      rw [zeroing_of hc, hsynced]
      rfl
    have hledger : w.next j s (.zeroInput j) = { w with
        held := []
        dropped := w.dropped ++ w.held.map (Prod.mk (clientRound j s)) } := if_pos rfl
    have hafter : clientRound j { s with clients := Function.update s.clients j (some { c with
        args := CPong.zeroInput c.args
        receipt := .idle
        pending := [] }) } = clientRound j s := by
      rw [clientRound_of (Function.update_self ..), hround]
    rw [hledger]
    refine ⟨fun press hpress => absurd hpress List.not_mem_nil, fun c hdropped => ?_, h.flight,
      h.refused, h.checked, h.waiting, h.applied⟩
    rw [hafter]
    rcases List.mem_append.mp hdropped with hold | hnew
    · exact h.dropped c hold
    · obtain ⟨press, hpress, rfl⟩ := List.mem_map.mp hnew
      have hheld := h.held press hpress
      rw [hzeroing] at hheld
      exact ⟨hheld.symm, le_rfl⟩
  · have hledger : w.next i s (.zeroInput j) = w := if_neg hj
    rw [hledger]
    refine h.of_same ?_ ?_ rfl
    · simp only [clientRound, Function.update_of_ne (Ne.symm hj)]
    · simp only [zeroing, Function.update_of_ne (Ne.symm hj)]

theorem RoundsKept.paddleInputs {j : Fin 2} {up down : Bool} {deltaTime : I32}
    (h : RoundsKept i s w) (hC : KeepsRounds i (s, w) (.paddleInputs j up down deltaTime))
    (hstep : matchStep m s (.paddleInputs j up down deltaTime) = some t) :
    RoundsKept i t (w.next i s (.paddleInputs j up down deltaTime)) := by
  obtain ⟨c, c', hc, hnext, rfl⟩ := onClient_eq_some hstep
  obtain ⟨-, rfl⟩ := clientStep_paddleInputs hnext
  by_cases hj : j = i
  · subst hj
    have hledger : w.next j s (.paddleInputs j up down deltaTime) =
        w.press ⟨clientRound j s, pressMs up down deltaTime⟩ := if_pos rfl
    rw [hledger]
    have hkept : RoundsKept j s (w.press ⟨clientRound j s, pressMs up down deltaTime⟩) := by
      unfold Ledger.press
      by_cases hzero : pressMs up down deltaTime = 0
      · rwa [if_pos hzero]
      · have hnot : zeroing j s = false := by
          rw [Bool.eq_false_iff]
          exact fun hz => hzero (hC rfl hz)
        rw [if_neg hzero]
        refine ⟨fun press hpress => ?_, h.dropped, h.flight, h.refused, h.checked, h.waiting,
          h.applied⟩
        rcases List.mem_append.mp hpress with hold | hnew
        · exact h.held press hold
        · rw [List.mem_singleton.mp hnew, hnot]
          rfl
    exact hkept.update hc rfl rfl
  · have hledger : w.next i s (.paddleInputs j up down deltaTime) = w := if_neg hj
    rw [hledger]
    exact h.update hc rfl rfl

theorem RoundsKept.network {j : Fin 2} (h : RoundsKept i s w)
    (hC : KeepsRounds i (s, w) (.network j)) (hstep : matchStep m s (.network j) = some t) :
    RoundsKept i t (w.next i s (.network j)) := by
  obtain ⟨c, hc, rfl⟩ := matchStep_network hstep
  have hkept : RoundsKept i s (w.next i s (.network j)) := by
    by_cases hj : j = i
    · subst hj
      have hledger : w.next j s (.network j) =
          { w with held := [], flight := w.flight ++ [⟨clientRound j s, w.held⟩] } := if_pos rfl
      rw [hledger]
      refine ⟨fun press hpress => absurd hpress List.not_mem_nil, h.dropped,
        fun parcel hparcel press hpress => ?_, h.refused, h.checked, h.waiting, h.applied⟩
      rcases List.mem_append.mp hparcel with hold | hnew
      · exact h.flight parcel hold press hpress
      · rw [List.mem_singleton.mp hnew] at hpress ⊢
        have hheld := h.held press hpress
        cases hz : zeroing j s with
        | false => rwa [hz] at hheld
        | true =>
          rw [show w.held = [] from hC rfl hz] at hpress
          exact absurd hpress List.not_mem_nil
    · have hledger : w.next i s (.network j) = w := if_neg hj
      rwa [hledger]
  have hnext : RoundsKept i { s with clients := Function.update s.clients j (some c.networked) }
      (w.next i s (.network j)) := hkept.update hc rfl rfl
  exact hnext.of_same rfl rfl rfl

theorem RoundsKept.step {l : MatchSection F} (hm : MatchInv m.room ssync s)
    (hw : Accounted m ssync i s w) (h : RoundsKept i s w) (hC : KeepsRounds i (s, w) l)
    (hstep : matchStep m s l = some t) : RoundsKept i t (w.next i s l) := by
  cases l with
  | check j garbage =>
    by_cases hj : j = i
    · subst hj
      exact h.check hm hw hstep
    · obtain ⟨p, rest, receiver, -, -, -, rfl⟩ := matchStep_check hstep (hm.up j)
      have hledger : w.next i s (.check j garbage) = w := if_neg hj
      rw [hledger]
      exact h.of_same rfl rfl rfl
  | accumulate => exact h.accumulate hstep
  | inputs => exact h.inputs hstep
  | advance tick =>
    obtain ⟨server, hserver, rfl⟩ := onServer_eq_some hstep
    obtain ⟨upds, ball, scoredIndex, -, -, rfl⟩ := roundStep_advance hserver
    exact h.of_same rfl rfl rfl
  | score rands => exact h.score hC hstep
  | announce =>
    obtain ⟨k, -, rfl⟩ := matchStep_announce hstep
    exact h.of_same rfl rfl rfl
  | receive j => exact h.receive hm hstep
  | setSync j => exact h.setSync hstep
  | zeroInput j => exact h.zeroInput hstep
  | paddleInputs j up down deltaTime => exact h.paddleInputs hC hstep
  | localState j fuel =>
    obtain ⟨c, c', hc, hnext, rfl⟩ := onClient_eq_some hstep
    obtain ⟨_, _, localState, -, -, rfl⟩ := clientStep_localState hnext
    exact h.update hc rfl rfl
  | network j => exact h.network hC hstep

/-- A section that keeps the rounds is one of those that may. -/
theorem RoundsKept.keepsRounds {l : MatchSection F} (h : RoundsKept i s w)
    (hstep : matchStep m s l = some t) (ht : RoundsKept i t (w.next i s l)) :
    KeepsRounds i (s, w) l := by
  cases l with
  | score rands =>
    obtain ⟨server, hserver, rfl⟩ := onServer_eq_some hstep
    obtain ⟨scoredIndex, j, -, -, rfl⟩ := roundStep_score hserver
    constructor
    · refine List.eq_nil_iff_forall_not_mem.mpr fun press hpress => ?_
      exact not_sameSync_succ (h.checked press hpress) (ht.checked press hpress)
    · refine List.eq_nil_iff_forall_not_mem.mpr fun press hpress => ?_
      exact not_sameSync_succ (h.waiting press hpress) (ht.waiting press hpress)
  | network j =>
    rintro rfl hz
    refine List.eq_nil_iff_forall_not_mem.mpr fun press hpress => ?_
    have hledger : w.next j s (.network j) =
        { w with held := [], flight := w.flight ++ [⟨clientRound j s, w.held⟩] } := if_pos rfl
    rw [hledger] at ht
    have hheld := h.held press hpress
    have hsent := ht.flight ⟨clientRound j s, w.held⟩
      (List.mem_append_right _ List.mem_cons_self) press hpress
    rw [hz] at hheld
    simp only [Bool.toNat_true] at hheld hsent
    omega
  | paddleInputs j up down deltaTime =>
    rintro rfl hz
    by_contra hne
    obtain ⟨c, c', hc, hnext, rfl⟩ := onClient_eq_some hstep
    obtain ⟨-, rfl⟩ := clientStep_paddleInputs hnext
    have hledger : w.next j s (.paddleInputs j up down deltaTime) = { w with
        pressed := w.pressed ++ [⟨clientRound j s, pressMs up down deltaTime⟩]
        held := w.held ++ [⟨clientRound j s, pressMs up down deltaTime⟩] } :=
      (if_pos rfl).trans (if_neg hne)
    rw [hledger] at ht
    have hheld := ht.held ⟨clientRound j s, pressMs up down deltaTime⟩
      (List.mem_append_right _ List.mem_cons_self)
    rw [zeroing_of hc] at hz
    rw [clientRound_of hc, clientRound_of (Function.update_self ..),
      zeroing_of (Function.update_self ..), hz] at hheld
    simp only [Bool.toNat_true] at hheld
    omega
  | _ => exact trivial

section WholeMatch

structure LedgerInv (m : Match F) (ssync : I8) (i : Fin 2) (c : MatchThreads F × Ledger) :
    Prop where
  inv : MatchInv m.room ssync c.1
  accounted : Accounted m ssync i c.1 c.2

theorem LedgerInv.start (rands : Rands) (g : Globals F) (i : Fin 2) :
    LedgerInv m g.ssync i (ledgerStart m rands g i) :=
  ⟨.start rands g, .start rands g i⟩

theorem LedgerInv.step {c c' : MatchThreads F × Ledger} {l : MatchSection F}
    (hdistinct : m.room.clients 0 ≠ m.room.clients 1) (h : LedgerInv m ssync i c)
    (hstep : ledgerStep m i c l = some c') : LedgerInv m ssync i c' := by
  obtain ⟨t, ht, rfl⟩ := Option.map_eq_some_iff.mp hstep
  exact ⟨h.inv.step ht, h.accounted.step hdistinct h.inv ht⟩

theorem RoundsKept.start (rands : Rands) (g : Globals F) (i : Fin 2) :
    RoundsKept i (matchBegin m rands g) (.start (inputOf g i)) where
  held _ h := absurd h List.not_mem_nil
  dropped _ h := absurd h List.not_mem_nil
  flight _ h := absurd h List.not_mem_nil
  refused _ h := absurd h List.not_mem_nil
  checked _ h := absurd h List.not_mem_nil
  waiting _ h := absurd h List.not_mem_nil
  applied _ h := absurd h List.not_mem_nil

/-- The ledger can be kept along any run. -/
theorem run_ledger {ls : List (MatchSection F)} (rands : Rands) (g : Globals F) (i : Fin 2)
    (h : System.run (matchStep m) (matchBegin m rands g) ls = some s) :
    ∃ w, System.run (ledgerStep m i) (ledgerStart m rands g i) ls = some (s, w) := by
  have hstep : ∀ (s : MatchThreads F) (c : MatchThreads F × Ledger) l t, c.1 = s →
      matchStep m s l = some t → ∃ c', ledgerStep m i c (id l) = some c' ∧ c'.1 = t := by
    rintro s c l t rfl hst
    exact ⟨(t, c.2.next i c.1 l), by rw [ledgerStep, id, hst]; rfl, rfl⟩
  have hstart : (ledgerStart m rands g i).1 = matchBegin m rands g := rfl
  obtain ⟨⟨s', w⟩, hrun, rfl⟩ := System.run_map hstep hstart h
  rw [List.map_id] at hrun
  exact ⟨w, hrun⟩

/-- The rounds are kept all along a run exactly if every section of it that could mix them up comes
at a time when it does not. -/
theorem allStates_roundsKept_iff (hdistinct : m.room.clients 0 ≠ m.room.clients 1) {rands : Rands}
    {g : Globals F} {ls : List (MatchSection F)} {c : MatchThreads F × Ledger}
    (h : System.run (ledgerStep m i) (ledgerStart m rands g i) ls = some c) :
    System.AllStates (ledgerStep m i) (fun c => RoundsKept i c.1 c.2)
        (ledgerStart m rands g i) ls ↔
      System.AllSteps (ledgerStep m i) (KeepsRounds i) (ledgerStart m rands g i) ls := by
  refine System.allStates_iff (fun c l c' hc hst => LedgerInv.step hdistinct hc hst) ?_
    (LedgerInv.start rands g i) (RoundsKept.start rands g i) h
  intro c l c' hc hkept hst
  obtain ⟨t, ht, rfl⟩ := Option.map_eq_some_iff.mp hst
  exact ⟨fun hnext => hkept.keepsRounds ht hnext,
    fun hC => hkept.step hc.inv hc.accounted hC ht⟩

/-- In any interleaving all that a player has pressed is at any time in one place and no more than
one. It is used, refused and dropped in the right rounds all along a run exactly if every section
of the run that could mix up the rounds comes at a time when it does not. -/
theorem input_accounted (hdistinct : m.room.clients 0 ≠ m.room.clients 1) {rands : Rands}
    {g : Globals F} {ls : List (MatchSection F)}
    (h : System.run (matchStep m) (matchBegin m rands g) ls = some s) (i : Fin 2) :
    ∃ w, System.run (ledgerStep m i) (ledgerStart m rands g i) ls = some (s, w) ∧
      Accounted m g.ssync i s w ∧
      (System.AllStates (ledgerStep m i) (fun c => RoundsKept i c.1 c.2)
          (ledgerStart m rands g i) ls ↔
        System.AllSteps (ledgerStep m i) (KeepsRounds i) (ledgerStart m rands g i) ls) := by
  obtain ⟨w, hrun⟩ := run_ledger rands g i h
  have hinv := System.invariant (fun c l c' hc hst => LedgerInv.step hdistinct hc hst)
    (LedgerInv.start rands g i) hrun
  exact ⟨w, hrun, hinv.accounted, allStates_roundsKept_iff hdistinct hrun⟩

end WholeMatch

end

instance {F : Type} (i : Fin 2) (c : MatchThreads F × Ledger) (l : MatchSection F) :
    Decidable (KeepsRounds i c l) :=
  match l with
  | .score _ => inferInstanceAs (Decidable (_ ∧ _))
  | .network _ => inferInstanceAs (Decidable (_ → _ → _))
  | .paddleInputs .. => inferInstanceAs (Decidable (_ → _ → _))
  | .check .. | .accumulate | .inputs | .advance _ | .announce | .receive _ | .setSync _
  | .zeroInput _ | .localState .. => isTrue trivial

/-- The second player presses in the first round; some of it moves the paddle, some reaches the
server after the goal, and some is dropped when the client sees the new round. -/
def lostPresses : List (MatchSection ℚ) :=
  [.receive 1, .paddleInputs 1 false true 16, .network 1, .localState 1 1, .check 1 Packet.zero,
    .paddleInputs 1 false true 17, .accumulate, .inputs, .network 1, .localState 1 1,
    .paddleInputs 1 true false 18, .advance ⟨6000, 1, 0, ⟨0, 0, 0⟩⟩, .score ⟨0, 0, 0⟩, .announce,
    .localState 1 1, .check 1 Packet.zero, .receive 1, .setSync 1, .zeroInput 1]

theorem input_accounted_lostPresses :
    ∃ s w, System.run (ledgerStep mixedMatch 1) (ledgerStart mixedMatch ⟨0, 1, 1⟩ .zero 1)
        lostPresses = some (s, w) ∧
      w.applied = [(0, ⟨0, 16⟩)] ∧ w.refused = [(1, ⟨0, 17⟩)] ∧ w.dropped = [(1, ⟨0, -18⟩)] ∧
      Accounted mixedMatch 0 1 s w ∧ RoundsKept 1 s w := by
  have hrun : (System.run (ledgerStep mixedMatch 1) (ledgerStart mixedMatch ⟨0, 1, 1⟩ .zero 1)
      lostPresses).map (fun c => (c.2.applied, c.2.refused, c.2.dropped)) =
      some ([(0, ⟨0, 16⟩)], [(1, ⟨0, 17⟩)], [(1, ⟨0, -18⟩)]) := by
    decide +kernel
  have hmatch : (System.run (matchStep mixedMatch) (matchBegin mixedMatch ⟨0, 1, 1⟩ .zero)
      lostPresses).isSome = true := by
    decide +kernel
  have hC : System.AllSteps (ledgerStep mixedMatch 1) (KeepsRounds 1)
      (ledgerStart mixedMatch ⟨0, 1, 1⟩ .zero 1) lostPresses := by
    decide +kernel
  obtain ⟨s, hs⟩ := Option.isSome_iff_exists.mp hmatch
  obtain ⟨w, hw, haccounted, hrounds⟩ := input_accounted (by decide) hs 1
  have hkept := hrounds.mpr hC lostPresses (s, w) (List.prefix_refl _) hw
  rw [hw] at hrun
  obtain ⟨happlied, hrest⟩ := Prod.mk.inj (Option.some.inj hrun)
  obtain ⟨hrefused, hdropped⟩ := Prod.mk.inj hrest
  exact ⟨s, w, hw, happlied, hrefused, hdropped, haccounted, hkept⟩

end CPong
