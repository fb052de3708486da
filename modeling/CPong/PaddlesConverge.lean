import CPong.PaddlePlaces

/-!
# The paddles agree in the end

When all input of a player has been taken, its client and the server have its paddle in the same
place, whatever goals and late packets there have been.
-/

namespace CPong

set_option autoImplicit false

open Lib
open Lib.WordSum

section
variable {F : Type}

/-- Nothing of player `i` is under way, and no call that could move its paddle is in progress. -/
structure AllTaken (i : Fin 2) (s : MatchThreads F) (c : ClientThreads F) : Prop where
  client : s.clients i = some c
  sender : s.server.sender = .idle
  receiver : s.server.receiver = .idle
  receipt : c.receipt = .idle
  frame : c.frame = none
  down : s.down i = []
  up : s.up i = []
  held : c.args.inputAccMs = 0
  waiting : inputOf s.server.globals i = 0

end

theorem sameSync_eq {round current : Nat} (h : SameSync round current) (hlt : current < 256) :
    round = current := by
  obtain ⟨n, hn⟩ := h
  omega

theorem filter_earlier {presses : List (Nat × Press)} {round : Nat}
    (h : ∀ c ∈ presses, c.2.round < round) :
    (presses.map Prod.snd).filter (fun press => press.round = round) = [] := by
  refine List.filter_eq_nil_iff.mpr fun press hpress => ?_
  obtain ⟨c, hc, rfl⟩ := List.mem_map.mp hpress
  simp only [decide_eq_true_eq]
  exact (h c hc).ne

/-- The input of a list whose sum is zero is zero, if the sum has not wrapped. -/
theorem total_of_msSum {presses : List Press} (h : msSum presses = 0)
    (hlt : magnitude (wordsOf presses) < 2 ^ 31) : total (wordsOf presses) = 0 := by
  have hsum : (wordsOf presses).sum.toInt = total (wordsOf presses) := by
    apply toInt_sum
    omega
  rw [← hsum]
  change (msSum presses).toInt = 0
  rw [h]
  rfl

section
variable {F : Type} [Field F] [LinearOrder F] [FloorRing F] [Libm F] {m : Match F}
  {s : MatchThreads F} {i : Fin 2} {ssync : I8} {w : Ledger} {c : ClientThreads F}

omit [LinearOrder F] [FloorRing F] [Libm F] in
/-- A client with nothing left in its stream is in the round of the server. -/
theorem AllTaken.round (h : AllTaken i s c) (hm : MatchInv m.room ssync s) :
    c.fieldRound = serverRound s ∧ clientRound i s = serverRound s := by
  have hstream := hm.down i
  rw [h.down, h.client] at hstream
  have hannounced : s.server.announced = serverRound s + 1 := by
    simp only [RoundServer.announced, h.sender, serverRound]
  have hfield : c.fieldRound = c.round := by
    simp only [ClientThreads.fieldRound, h.receipt]
  have hseen : c.fieldRound + 1 = s.server.announced := by
    generalize s.server.announced = k at hstream ⊢
    cases hstream with
    | nil => rfl
  rw [clientRound_of h.client]
  omega

omit [Field F] [LinearOrder F] [FloorRing F] [Libm F] in
/-- What was pressed in the round has been applied in it or sums up to nothing in an
accumulator. -/
theorem AllTaken.filter_pressed (h : AllTaken i s c) (hacc : Accounted m ssync i s w)
    (hkept : RoundsKept i s w) (hround : clientRound i s = serverRound s)
    (hlt : serverRound s < 256) :
    (w.pressedIn (serverRound s)).Perm (w.held ++ w.waiting ++ w.appliedIn (serverRound s)) := by
  have hzeroing : zeroing i s = false := by
    rw [zeroing_of h.client, h.receipt]
    rfl
  have hheld : w.held.filter (fun press => press.round = serverRound s) = w.held := by
    refine List.filter_eq_self.mpr fun press hpress => ?_
    have hpressRound := hkept.held press hpress
    rw [hzeroing] at hpressRound
    exact decide_eq_true (hpressRound.trans hround)
  have hwaiting : w.waiting.filter (fun press => press.round = serverRound s) = w.waiting := by
    refine List.filter_eq_self.mpr fun press hpress => ?_
    exact decide_eq_true (sameSync_eq (hkept.waiting press hpress) hlt)
  have hdropped :
      (w.dropped.map Prod.snd).filter (fun press => press.round = serverRound s) = [] := by
    refine filter_earlier fun dropped hmem => ?_
    obtain ⟨hbefore, hle⟩ := hkept.dropped dropped hmem
    omega
  have hrefused :
      (w.refused.map Prod.snd).filter (fun press => press.round = serverRound s) = [] := by
    refine filter_earlier fun refused hmem => ?_
    obtain ⟨hbefore, -, hle⟩ := hkept.refused refused hmem
    omega
  have hflight : w.flight = [] := by
    have hcarried := hacc.flight
    rw [h.up] at hcarried
    exact List.forall₂_nil_right_iff.mp hcarried
  have hchecked : w.checked = [] := by
    have hholds := hacc.checked
    simp only [RoundServer.checkedFor, h.receiver] at hholds
    exact hholds
  have htaken : (w.applied.map Prod.snd).filter (fun press => press.round = serverRound s) =
      w.appliedIn (serverRound s) := by
    rw [List.filter_map, Ledger.appliedIn]
    congr 1
    refine List.filter_congr fun applied hmem => ?_
    obtain ⟨hsame, hle⟩ := hkept.applied applied hmem
    rw [Function.comp_apply, sameSync_eq hsame (hle.trans_lt hlt)]
  have hall := hacc.all.filter (fun press => press.round = serverRound s)
  unfold Ledger.places at hall
  simp only [List.filter_append, hheld, hdropped, hflight, hrefused, hchecked, hwaiting, htaken,
    List.flatMap_nil, List.append_nil] at hall
  exact hall

/-- If all along the run the input was kept to its rounds and no frame overlapped the replacement
of the field, the client has its paddle where the server has it as soon as nothing is under
way. -/
theorem paddles_converge [IsStrictOrderedRing F]
    (hdistinct : m.room.clients 0 ≠ m.room.clients 1) {rands : Rands} {g : Globals F}
    {ls : List (MatchSection F)}
    (h : System.run (matchStep m) (matchBegin m rands g) ls = some s) (hfresh : inputOf g i = 0)
    (hshort : keyMs i ls < 2 ^ 31)
    (hrounds : System.AllSteps (ledgerStep m i) (KeepsRounds i) (ledgerStart m rands g i) ls)
    (hapart : System.AllSteps (matchStep m) (FramesApart i) (matchBegin m rands g) ls)
    (hlt : serverRound s < 256) (htaken : AllTaken i s c) :
    (ownPlayer c.args.localState).pos.y = (playerOf s.server.globals.state i).pos.y := by
  obtain ⟨w, hrun, hinv, hms, hclient⟩ := PlaceInv.of_run hdistinct h i hfresh
  have hacc : Accounted m g.ssync i s w := hinv.ledger.accounted
  have hkept : RoundsKept i s w :=
    (allStates_roundsKept_iff hdistinct hrun).mpr hrounds ls (s, w) (List.prefix_refl _) hrun
  obtain ⟨hfield, hround⟩ := htaken.round hinv.ledger.inv
  rw [← hms] at hshort
  have hheld := hacc.held
  simp only [htaken.client, Option.map_some, HoldsSum, htaken.held] at hheld
  have hwaiting := hacc.waiting
  have hleftover : w.leftover = 0 := hinv.fresh
  rw [htaken.waiting, hleftover, zero_add] at hwaiting
  have hparts := hacc.magnitude_parts
  have hsame : total (wordsOf (w.pressedIn (serverRound s))) =
      total (wordsOf (w.appliedIn (serverRound s))) := by
    have hsum := total_perm ((htaken.filter_pressed hacc hkept hround hlt).map Press.ms)
    change total (wordsOf _) = total (wordsOf _) at hsum
    rw [hsum, wordsOf_append, wordsOf_append, total_append, total_append,
      total_of_msSum hheld.symm (by omega), total_of_msSum hwaiting.symm (by omega)]
    omega
  have hserver : s.server.placeOf i = _ := hinv.server.place hshort
  simp only [RoundServer.placeOf, htaken.sender] at hserver
  have hown := (hclient hapart).place hshort c htaken.client
  simp only [ClientThreads.frameMs, htaken.frame, Int.cast_zero, mul_zero, add_zero] at hown
  rw [hserver, hown, hfield, hsame]

end

/-- The second player holds a key in each of the two rounds; what its first packet brings after
the goal is refused, and the other one is taken and shown. -/
def acrossRounds : List (MatchSection ℚ) :=
  [.receive 1, .paddleInputs 1 false true 16, .localState 1 1, .network 1, .inputs,
    .advance ⟨6000, 1, 0, ⟨0, 0, 0⟩⟩, .paddleInputs 1 false true 17, .score ⟨0, 0, 0⟩, .announce,
    .localState 1 1, .check 1 Packet.zero, .receive 1, .setSync 1, .zeroInput 1,
    .paddleInputs 1 true false 30, .localState 1 1, .network 1, .check 1 Packet.zero, .accumulate,
    .inputs, .advance ⟨1, 1, 0, ⟨0, 0, 0⟩⟩, .announce, .receive 1]

theorem paddles_converge_acrossRounds :
    ∃ s c, System.run (matchStep mixedMatch) (matchBegin mixedMatch ⟨0, 1, 1⟩ .zero)
        acrossRounds = some s ∧
      AllTaken 1 s c ∧ (playerOf s.server.globals.state 1).pos.y = 145 ∧
      (ownPlayer c.args.localState).pos.y = (playerOf s.server.globals.state 1).pos.y := by
  have hserver : (System.run (matchStep mixedMatch) (matchBegin mixedMatch ⟨0, 1, 1⟩ .zero)
      acrossRounds).map (fun s => ((playerOf s.server.globals.state 1).pos.y, serverRound s,
        inputOf s.server.globals 1)) = some (145, 1, 0) := by
    decide +kernel
  have hthreads : (System.run (matchStep mixedMatch) (matchBegin mixedMatch ⟨0, 1, 1⟩ .zero)
      acrossRounds).map (fun s => (s.server.sender, s.server.receiver, (s.down 1).length,
        (s.up 1).length)) = some (.idle, .idle, 0, 0) := by
    decide +kernel
  have hclient : (System.run (matchStep mixedMatch) (matchBegin mixedMatch ⟨0, 1, 1⟩ .zero)
      acrossRounds).map (fun s => (s.clients 1).map fun c =>
        (c.receipt, c.frame, c.args.inputAccMs)) = some (some (.idle, none, 0)) := by
    decide +kernel
  have hrounds : System.AllSteps (ledgerStep mixedMatch 1) (KeepsRounds 1)
      (ledgerStart mixedMatch ⟨0, 1, 1⟩ .zero 1) acrossRounds := by
    decide +kernel
  have hapart : System.AllSteps (matchStep mixedMatch) (FramesApart 1)
      (matchBegin mixedMatch ⟨0, 1, 1⟩ .zero) acrossRounds := by
    decide +kernel
  obtain ⟨s, hs, hvalues⟩ := Option.map_eq_some_iff.mp hserver
  rw [hs] at hthreads hclient
  simp only [Option.map_some, Option.some.injEq, Prod.mk.injEq] at hvalues hthreads hclient
  obtain ⟨hplace, hround, hwaiting⟩ := hvalues
  obtain ⟨hsender, hreceiver, hdown, hup⟩ := hthreads
  obtain ⟨c, hc, hcvalues⟩ := Option.map_eq_some_iff.mp hclient
  simp only [Prod.mk.injEq] at hcvalues
  obtain ⟨hreceipt, hframe, hheld⟩ := hcvalues
  have htaken : AllTaken 1 s c := ⟨hc, hsender, hreceiver, hreceipt, hframe,
    List.length_eq_zero_iff.mp hdown, List.length_eq_zero_iff.mp hup, hheld, hwaiting⟩
  exact ⟨s, c, hs, htaken, hplace, paddles_converge (by decide) hs (by decide) (by decide) hrounds
    hapart (by omega) htaken⟩

end CPong
