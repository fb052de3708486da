import CPong.Lib.WordSum
import CPong.PressRounds

/-!
# The paddles follow the keys

The server has a paddle where the input that the ticks of the round have taken puts it, and the
client has it where the keys held in its round put it, if no frame overlaps the replacement of
its field.
-/

namespace CPong

set_option autoImplicit false

open Lib
open Lib.WordSum

section
variable {F : Type}

def wordsOf (presses : List Press) : List I32 := presses.map Press.ms

/-- The input that the ticks of a round have taken. -/
def Ledger.appliedIn (w : Ledger) (round : Nat) : List Press :=
  (w.applied.filter fun c => c.1 = round).map Prod.snd

/-- The input of the frames that the client has drawn in a round. -/
def Ledger.pressedIn (w : Ledger) (round : Nat) : List Press :=
  w.pressed.filter fun press => press.round = round

/-- What the section moves the own paddle of client `i` by in its frame, in milliseconds. -/
def keyTime (i : Fin 2) : MatchSection F → Int
  | .paddleInputs j up down deltaTime =>
    if j = i then inputDirection up down * deltaTime.toInt else 0
  | _ => 0

/-- How long player `i` has held a key, whichever it was. -/
def keyMs (i : Fin 2) (ls : List (MatchSection F)) : Nat :=
  (ls.map fun l => (keyTime i l).natAbs).sum

/-- What the frame in progress has yet to move the own paddle by. -/
def ClientThreads.frameMs (c : ClientThreads F) : Int :=
  match c.frame with
  | none => 0
  | some (paddleDirection, deltaTime) => paddleDirection * deltaTime.toInt

/-- Where the server has the paddle of player `i`, or the tick in progress will put it. -/
def RoundServer.placeOf (i : Fin 2) (s : RoundServer F) : F :=
  match s.sender with
  | .applied upds => (updOf upds i).pos.y
  | _ => (playerOf s.globals.state i).pos.y

/-- The field is not replaced during a frame, whose `update_local_state` holds no mutex, and
between the replacement and the setting of `*sync` no frame begins that moves the paddle. -/
def FramesApart (i : Fin 2) (s : MatchThreads F) : MatchSection F → Prop
  | .receive j => j = i → ∀ c ∈ s.clients i, ∀ p ∈ (s.down i).head?,
      p.type = CpongPacket.init.code → c.frame = none
  | .paddleInputs j up down deltaTime => j = i → ∀ c ∈ s.clients i,
      c.fieldRound ≠ c.round → pressMs up down deltaTime = 0
  | _ => True

end

theorem wordsOf_append (l r : List Press) : wordsOf (l ++ r) = wordsOf l ++ wordsOf r :=
  List.map_append

theorem toInt_inputDirection (up down : Bool) :
    (BitVec.ofInt 32 (inputDirection up down)).toInt = inputDirection up down := by
  rcases inputDirection_cases up down with hd | hd | hd <;> rw [hd] <;> rfl

/-- The input of a frame is as long as the frame, if it does not wrap to the other sign. -/
theorem natAbs_press (up down : Bool) (deltaTime : I32) :
    (pressMs up down deltaTime).toInt.natAbs = (inputDirection up down * deltaTime.toInt).natAbs := by
  have hlt := BitVec.toInt_lt (x := deltaTime)
  have hle := BitVec.le_toInt (x := deltaTime)
  rw [pressMs, BitVec.toInt_mul, toInt_inputDirection]
  rcases inputDirection_cases up down with hd | hd | hd
  · rw [hd]
    by_cases hmin : deltaTime.toInt = -2 ^ 31
    · rw [hmin]
      rfl
    · rw [Int.bmod_eq_of_le (by omega) (by omega)]
  · rw [hd, zero_mul]
    rfl
  · rw [hd, one_mul, Int.bmod_eq_of_le (by omega) (by omega)]

theorem toInt_press {up down : Bool} {deltaTime : I32}
    (h : (inputDirection up down * deltaTime.toInt).natAbs < 2 ^ 31) :
    (pressMs up down deltaTime).toInt = inputDirection up down * deltaTime.toInt := by
  rw [pressMs, BitVec.toInt_mul, toInt_inputDirection]
  apply Int.bmod_eq_of_le
  · omega
  · omega

theorem appliedIn_append (w : Ledger) (round : Nat) (presses : List Press) :
    ({ w with applied := w.applied ++ presses.map (Prod.mk round) } : Ledger).appliedIn round =
      w.appliedIn round ++ presses := by
  have hall : (presses.map (Prod.mk round)).filter (fun c => c.1 = round) =
      presses.map (Prod.mk round) := by
    refine List.filter_eq_self.mpr fun c hc => ?_
    obtain ⟨press, -, rfl⟩ := List.mem_map.mp hc
    exact decide_eq_true rfl
  simp only [Ledger.appliedIn, List.filter_append, List.map_append, hall, map_snd_map_mk]

theorem appliedIn_later {w : Ledger} {round later : Nat} (h : ∀ c ∈ w.applied, c.1 ≤ round)
    (hlater : round < later) : w.appliedIn later = [] := by
  have hnone : w.applied.filter (fun c => c.1 = later) = [] := by
    refine List.filter_eq_nil_iff.mpr fun c hc => ?_
    have hle := h c hc
    simp only [decide_eq_true_eq]
    omega
  rw [Ledger.appliedIn, hnone, List.map_nil]

theorem pressedIn_later {w : Ledger} {round later : Nat}
    (h : ∀ press ∈ w.pressed, press.round ≤ round) (hlater : round < later) :
    w.pressedIn later = [] := by
  refine List.filter_eq_nil_iff.mpr fun press hpress => ?_
  have hle := h press hpress
  simp only [decide_eq_true_eq]
  omega

section
variable {F : Type} [Field F] [LinearOrder F] [FloorRing F] [Libm F] {m : Match F}
  {s t : MatchThreads F} {i : Fin 2} {ssync : I8} {w : Ledger}

/-- The server has the paddle where the input of the round has put it. -/
structure ServerPlace (i : Fin 2) (s : MatchThreads F) (w : Ledger) : Prop where
  rounds : ∀ c ∈ w.applied, c.1 ≤ serverRound s
  place : magnitude (wordsOf w.pressed) < 2 ^ 31 →
    s.server.placeOf i = 160 + 0.5 * (total (wordsOf (w.appliedIn (serverRound s))) : F)

/-- The client has its paddle where the keys held in its round have put it, but for the frame in
progress. -/
structure ClientPlace (i : Fin 2) (s : MatchThreads F) (w : Ledger) : Prop where
  absent : s.clients i = none → w.pressed = []
  rounds : ∀ press ∈ w.pressed, press.round ≤ clientRound i s
  place : magnitude (wordsOf w.pressed) < 2 ^ 31 → ∀ c, s.clients i = some c →
    (ownPlayer c.args.localState).pos.y + 0.5 * (c.frameMs : F) =
      160 + 0.5 * (total (wordsOf (w.pressedIn c.fieldRound)) : F)

section Ledgers

theorem magnitude_press (w : Ledger) (press : Press) :
    magnitude (wordsOf (w.press press).pressed) =
      magnitude (wordsOf w.pressed) + press.ms.toInt.natAbs := by
  unfold Ledger.press
  by_cases hzero : press.ms = 0
  · rw [if_pos hzero, hzero]
    rfl
  · rw [if_neg hzero]
    simp [wordsOf]

omit [Field F] [LinearOrder F] [FloorRing F] [Libm F] in
/-- Only a frame presses keys and only a tick applies them. -/
theorem Ledger.next_cases (w : Ledger) (i : Fin 2) (s : MatchThreads F) (l : MatchSection F) :
    (∃ j up down deltaTime, l = .paddleInputs j up down deltaTime) ∨ l = .inputs ∨
      keyTime i l = 0 ∧ (w.next i s l).pressed = w.pressed ∧
        (w.next i s l).applied = w.applied ∧ (w.next i s l).leftover = w.leftover := by
  cases l with
  | check j garbage =>
    refine Or.inr (Or.inr ⟨rfl, ?_⟩)
    simp only [Ledger.next]
    split_ifs
    · split
      · split_ifs <;> exact ⟨rfl, rfl, rfl⟩
      · exact ⟨rfl, rfl, rfl⟩
    · exact ⟨rfl, rfl, rfl⟩
  | inputs => exact Or.inr (Or.inl rfl)
  | paddleInputs j up down deltaTime => exact Or.inl ⟨j, up, down, deltaTime, rfl⟩
  | zeroInput j =>
    refine Or.inr (Or.inr ⟨rfl, ?_⟩)
    simp only [Ledger.next]
    split_ifs <;> exact ⟨rfl, rfl, rfl⟩
  | network j =>
    refine Or.inr (Or.inr ⟨rfl, ?_⟩)
    simp only [Ledger.next]
    split_ifs <;> exact ⟨rfl, rfl, rfl⟩
  | _ => exact Or.inr (Or.inr ⟨rfl, rfl, rfl, rfl⟩)

omit [Field F] [LinearOrder F] [FloorRing F] [Libm F] in
theorem magnitude_next (w : Ledger) (i : Fin 2) (s : MatchThreads F) (l : MatchSection F) :
    magnitude (wordsOf (w.next i s l).pressed) =
      magnitude (wordsOf w.pressed) + (keyTime i l).natAbs := by
  rcases w.next_cases i s l with ⟨j, up, down, deltaTime, rfl⟩ | rfl | ⟨hkey, hpressed, -⟩
  · simp only [Ledger.next, keyTime]
    split_ifs with hj
    · rw [magnitude_press, natAbs_press]
    · rfl
  · rfl
  · rw [hkey, hpressed]
    rfl

omit [Field F] [LinearOrder F] [FloorRing F] [Libm F] in
theorem Accounted.magnitude_parts (h : Accounted m ssync i s w) :
    magnitude (wordsOf w.pressed) = magnitude (wordsOf w.held) +
      magnitude (wordsOf (w.dropped.map Prod.snd)) +
      magnitude (wordsOf (w.flight.flatMap Parcel.presses)) +
      magnitude (wordsOf (w.refused.map Prod.snd)) + magnitude (wordsOf w.checked) +
      magnitude (wordsOf w.waiting) + magnitude (wordsOf (w.applied.map Prod.snd)) := by
  have hplaces : magnitude (wordsOf w.pressed) = magnitude (wordsOf w.places) :=
    magnitude_perm (h.all.map Press.ms)
  rw [hplaces]
  simp only [Ledger.places, wordsOf_append, magnitude_append]

omit [Field F] [LinearOrder F] [FloorRing F] [Libm F] in
/-- The accumulator of the server has not wrapped if the keys were not held for too long. -/
theorem Accounted.toInt_inputOf (h : Accounted m ssync i s w) (hfresh : w.leftover = 0)
    (hlt : magnitude (wordsOf w.pressed) < 2 ^ 31) :
    (inputOf s.server.globals i).toInt = total (wordsOf w.waiting) ∧
      inputOf s.server.globals i ≠ BitVec.intMin 32 := by
  have hparts := h.magnitude_parts
  have htotal := natAbs_total_le (wordsOf w.waiting)
  have hinput : (inputOf s.server.globals i).toInt = total (wordsOf w.waiting) := by
    have hsmall : 2 * magnitude (wordsOf w.waiting) < 2 ^ 32 := by omega
    rw [h.waiting, hfresh, zero_add]
    exact toInt_sum hsmall
  refine ⟨hinput, fun hmin => ?_⟩
  rw [hmin] at hinput
  have hval : (BitVec.intMin 32).toInt = -2 ^ 31 := by decide
  omega

omit [Field F] [LinearOrder F] [FloorRing F] [Libm F] in
theorem Accounted.magnitude_appliedIn_le (h : Accounted m ssync i s w) (round : Nat) :
    magnitude (wordsOf (w.appliedIn round)) ≤ magnitude (wordsOf w.pressed) := by
  have hparts := h.magnitude_parts
  have hpart : magnitude (wordsOf (w.appliedIn round)) ≤
      magnitude (wordsOf (w.applied.map Prod.snd)) :=
    magnitude_le_of_sublist ((List.filter_sublist.map Prod.snd).map Press.ms)
  omega

theorem Ledger.press_applied (w : Ledger) (press : Press) :
    (w.press press).applied = w.applied ∧ (w.press press).leftover = w.leftover := by
  unfold Ledger.press
  split_ifs <;> exact ⟨rfl, rfl⟩

omit [Field F] [LinearOrder F] [FloorRing F] [Libm F] in
theorem Ledger.leftover_next (h : w.leftover = 0) (l : MatchSection F) :
    (w.next i s l).leftover = 0 := by
  rcases w.next_cases i s l with ⟨j, up, down, deltaTime, rfl⟩ | rfl | ⟨-, -, -, hleftover⟩
  · simp only [Ledger.next]
    split_ifs
    · exact (w.press_applied _).2.trans h
    · exact h
  · rfl
  · exact hleftover.trans h

omit [Field F] [LinearOrder F] [FloorRing F] [Libm F] in
theorem Ledger.pressed_next {l : MatchSection F}
    (hl : ∀ j up down deltaTime, l ≠ .paddleInputs j up down deltaTime) :
    (w.next i s l).pressed = w.pressed := by
  rcases w.next_cases i s l with ⟨j, up, down, deltaTime, hpaddle⟩ | rfl | ⟨-, hpressed, -⟩
  · exact absurd hpaddle (hl j up down deltaTime)
  · rfl
  · exact hpressed

omit [Field F] [LinearOrder F] [FloorRing F] [Libm F] in
theorem Ledger.applied_next {l : MatchSection F} (hl : l ≠ .inputs) :
    (w.next i s l).applied = w.applied := by
  rcases w.next_cases i s l with ⟨j, up, down, deltaTime, rfl⟩ | hinputs | ⟨-, -, happlied, -⟩
  · simp only [Ledger.next]
    split_ifs
    · exact (w.press_applied _).1
    · rfl
  · exact absurd hinputs hl
  · exact happlied

theorem mem_press {press p : Press} (h : p ∈ (w.press press).pressed) : p ∈ w.pressed ∨ p = press := by
  unfold Ledger.press at h
  split at h
  · exact Or.inl h
  · rcases List.mem_append.mp h with hold | hnew
    · exact Or.inl hold
    · exact Or.inr (List.mem_singleton.mp hnew)

/-- A key adds to the round in which it is pressed. -/
theorem total_press (w : Ledger) (press : Press) (round : Nat) :
    total (wordsOf ((w.press press).pressedIn round)) = total (wordsOf (w.pressedIn round)) +
      if press.round = round then press.ms.toInt else 0 := by
  unfold Ledger.press Ledger.pressedIn
  by_cases hzero : press.ms = 0
  · rw [if_pos hzero, hzero]
    simp
  · rw [if_neg hzero, List.filter_append, wordsOf_append, total_append]
    by_cases hround : press.round = round
    · simp [wordsOf, hround]
    · simp [wordsOf, hround]

end Ledgers

section ServerPaddle

omit [LinearOrder F] [FloorRing F] [Libm F] in
theorem ServerPlace.of_same {w' : Ledger} (h : ServerPlace i s w)
    (hplace : t.server.placeOf i = s.server.placeOf i) (hround : serverRound t = serverRound s)
    (happlied : w'.applied = w.applied)
    (hle : magnitude (wordsOf w.pressed) ≤ magnitude (wordsOf w'.pressed)) :
    ServerPlace i t w' := by
  refine ⟨fun c hc => ?_, fun hlt => ?_⟩
  · rw [hround]
    exact h.rounds c (happlied ▸ hc)
  · rw [hround, hplace, Ledger.appliedIn, happlied]
    exact h.place (hle.trans_lt hlt)

/-- A tick takes what is waiting. -/
theorem ServerPlace.inputs (hm : MatchInv m.room ssync s) (hacc : Accounted m ssync i s w)
    (hfresh : w.leftover = 0) (h : ServerPlace i s w)
    (hstep : matchStep m s .inputs = some t) : ServerPlace i t (w.next i s .inputs) := by
  obtain ⟨server, hserver, rfl⟩ := onServer_eq_some hstep
  obtain ⟨hidle, rfl⟩ := roundStep_inputs hserver
  refine ⟨fun c hc => ?_, fun hlt => ?_⟩
  · rcases List.mem_append.mp hc with hold | hnew
    · exact h.rounds c hold
    · obtain ⟨press, -, rfl⟩ := List.mem_map.mp hnew
      exact le_rfl
  · obtain ⟨hinput, hmin⟩ := hacc.toInt_inputOf hfresh hlt
    have hbefore := h.place hlt
    simp only [RoundServer.placeOf, hidle] at hbefore
    have htaken : (w.next i s .inputs).appliedIn (serverRound s) =
        w.appliedIn (serverRound s) ++ w.waiting :=
      appliedIn_append w (serverRound s) w.waiting
    change (updOf (sendStateInputs s.server.globals).1 i).pos.y = 160 + 0.5 *
      ((total (wordsOf ((w.next i s .inputs).appliedIn (serverRound s))) : Int) : F)
    rw [(playerOf_sendStateInputs s.server.globals i).2, steer_linearMove (hm.server.speed i) hmin,
      hbefore, hinput, htaken, wordsOf_append, total_append]
    push_cast
    ring

/-- A goal puts the paddle back, and nothing has been taken in the new round. -/
theorem ServerPlace.score {rands : Rands} (h : ServerPlace i s w)
    (hstep : matchStep m s (.score rands) = some t) :
    ServerPlace i t (w.next i s (.score rands)) := by
  obtain ⟨server, hserver, rfl⟩ := onServer_eq_some hstep
  obtain ⟨scoredIndex, j, -, -, rfl⟩ := roundStep_score hserver
  refine ⟨fun c hc => (h.rounds c hc).trans (Nat.le_succ _), fun _ => ?_⟩
  have hnone : w.appliedIn (s.server.round + 1) = [] := appliedIn_later h.rounds (Nat.lt_succ_self _)
  have hmiddle := (playerOf_initGame s.server.globals.state rands i).1
  change (playerOf (initGame s.server.globals.state rands) i).pos.y = 160 + 0.5 *
    ((total (wordsOf (w.appliedIn (s.server.round + 1))) : Int) : F)
  rw [hnone, hmiddle]
  simp [wordsOf]

theorem ServerPlace.step {l : MatchSection F} (hm : MatchInv m.room ssync s)
    (hacc : Accounted m ssync i s w) (hfresh : w.leftover = 0) (h : ServerPlace i s w)
    (hstep : matchStep m s l = some t) : ServerPlace i t (w.next i s l) := by
  have hle : magnitude (wordsOf w.pressed) ≤ magnitude (wordsOf (w.next i s l).pressed) := by
    rw [magnitude_next]
    exact Nat.le_add_right _ _
  cases l with
  | check j garbage =>
    obtain ⟨p, rest, receiver, -, -, -, rfl⟩ := matchStep_check hstep (hm.up j)
    exact h.of_same rfl rfl (Ledger.applied_next (by simp)) hle
  | accumulate =>
    obtain ⟨server, hserver, rfl⟩ := onServer_eq_some hstep
    obtain ⟨id, inputAccMs, tag, -, rfl⟩ := roundStep_accumulate hserver
    refine h.of_same ?_ ?_ rfl hle
    · simp only [RoundServer.placeOf, RoundServer.credit_sender, onInputReadyAccumulate_state]
    · simp only [serverRound, RoundServer.credit_round]
  | inputs => exact h.inputs hm hacc hfresh hstep
  | advance tick =>
    obtain ⟨server, hserver, rfl⟩ := onServer_eq_some hstep
    obtain ⟨upds, ball, scoredIndex, happlied, -, rfl⟩ := roundStep_advance hserver
    refine h.of_same ?_ rfl rfl hle
    simp only [RoundServer.placeOf, happlied, playerOf_moved]
  | score rands => exact h.score hstep
  | announce =>
    obtain ⟨k, hk, rfl⟩ := matchStep_announce hstep
    refine h.of_same ?_ rfl rfl hle
    rcases hk with ⟨hsender, -⟩ | ⟨hsender, -⟩
    · simp only [RoundServer.placeOf, hsender]
    · simp only [RoundServer.placeOf, hsender]
  | receive j =>
    obtain ⟨p, rest, client, -, -, rfl⟩ := hm.taken hstep
    exact h.of_same rfl rfl rfl hle
  | setSync j =>
    obtain ⟨c, c', -, -, rfl⟩ := onClient_eq_some hstep
    exact h.of_same rfl rfl rfl hle
  | zeroInput j =>
    obtain ⟨c, c', -, -, rfl⟩ := onClient_eq_some hstep
    exact h.of_same rfl rfl (Ledger.applied_next (by simp)) hle
  | paddleInputs j up down deltaTime =>
    obtain ⟨c, c', -, -, rfl⟩ := onClient_eq_some hstep
    exact h.of_same rfl rfl (Ledger.applied_next (by simp)) hle
  | localState j fuel =>
    obtain ⟨c, c', -, -, rfl⟩ := onClient_eq_some hstep
    exact h.of_same rfl rfl rfl hle
  | network j =>
    obtain ⟨c, -, rfl⟩ := matchStep_network hstep
    exact h.of_same rfl rfl (Ledger.applied_next (by simp)) hle

end ServerPaddle

section ClientPaddle

omit [Field F] [LinearOrder F] [FloorRing F] [Libm F] in
theorem ownPlayer_eq {state : PongState F} (h : state.ownIdIndex = ownIndex i) :
    ownPlayer state = playerOf state i := by
  unfold ownPlayer playerOf
  rw [h]
  match i with
  | 0 => rfl
  | 1 => rfl

omit [Libm F] in
/-- The middle of the field comes over the wire as it is. -/
theorem packetReceived_middle [IsStrictOrderedRing F] {p : Packet F}
    (htype : p.type = CpongPacket.init.code) (hplace : (playerOf p.data.state i).pos.y = 160) :
    (playerOf (packetReceived m.server (m.client i) p Packet.zero).data.state i).pos.y = 160 := by
  have hfloat : (playerOf (packetReceived m.server (m.client i) p Packet.zero).data.state
      i).pos.y = receivedFloat m.server (playerOf p.data.state i).pos.y := by
    rw [packetReceived_of_type m.server (m.client i) htype]
    match i with
    | 0 => rfl
    | 1 => rfl
  have hmiddle : ((160 : Int) : F) = 160 := by norm_num
  rw [hfloat, hplace, ← hmiddle]
  exact receivedFloat_intCast m.server (by norm_num)

omit [LinearOrder F] [FloorRing F] [Libm F] in
theorem ClientPlace.of_same {w' : Ledger} (h : ClientPlace i s w)
    (hclient : t.clients i = s.clients i) (hpressed : w'.pressed = w.pressed) :
    ClientPlace i t w' := by
  refine ⟨?_, ?_, ?_⟩
  · rw [hclient, hpressed]
    exact h.absent
  · unfold clientRound
    rw [hclient, hpressed]
    exact h.rounds
  · unfold Ledger.pressedIn
    rw [hclient, hpressed]
    exact h.place

omit [LinearOrder F] [FloorRing F] [Libm F] in
/-- A section of a client that presses no key and leaves the paddle where its frame puts it. -/
theorem ClientPlace.update {w' : Ledger} {j : Fin 2} {c c' : ClientThreads F}
    (h : ClientPlace i s w) (hc : s.clients j = some c) (hround : c.round ≤ c'.round)
    (hfield : c'.fieldRound = c.fieldRound)
    (hplace : (ownPlayer c'.args.localState).pos.y + 0.5 * (c'.frameMs : F) =
      (ownPlayer c.args.localState).pos.y + 0.5 * (c.frameMs : F))
    (hpressed : w'.pressed = w.pressed) :
    ClientPlace i { s with clients := Function.update s.clients j (some c') } w' := by
  by_cases hj : j = i
  · subst hj
    have hself : (Function.update s.clients j (some c')) j = some c' := Function.update_self ..
    refine ⟨fun hnone => ?_, fun press hpress => ?_, fun hlt c₁ hc₁ => ?_⟩
    · cases hself.symm.trans hnone
    · rw [hpressed] at hpress
      have hle := h.rounds press hpress
      rw [clientRound_of hc] at hle
      rw [clientRound_of hself]
      exact hle.trans hround
    · cases hself.symm.trans hc₁
      rw [hpressed] at hlt
      rw [hplace, hfield, Ledger.pressedIn, hpressed]
      exact h.place hlt c hc
  · exact h.of_same (Function.update_of_ne (Ne.symm hj) ..) hpressed

omit [Libm F] in
/-- A field that has come over the wire has the paddle in the middle, and no key of its round has
been pressed. -/
theorem Taken.place [IsStrictOrderedRing F] {p : Packet F} {old : Option (ClientThreads F)}
    {client : ClientThreads F} (htaken : Taken m i p old client)
    (hown : client.args.localState.ownIdIndex = ownIndex i)
    (hinit : p.type = CpongPacket.init.code → (playerOf p.data.state i).pos.y = 160 ∧
      ∀ c, old = some c → c.frameMs = 0) :
    (ownPlayer client.args.localState).pos.y = 160 ∧ client.frameMs = 0 ∧
        client.fieldRound = seenBy old ∨
      ∃ c, old = some c ∧ client.fieldRound = c.fieldRound ∧ client.frameMs = c.frameMs ∧
        ownPlayer client.args.localState = ownPlayer c.args.localState := by
  cases htaken with
  | first htype =>
    refine Or.inl ⟨?_, rfl, rfl⟩
    rw [ownPlayer_eq hown]
    exact packetReceived_middle htype (hinit htype).1
  | @state c args htype hidle hargs =>
    subst hargs
    exact Or.inr ⟨c, rfl, rfl, rfl, ownPlayer_serverSnap _ _⟩
  | @init c args htype hidle hargs =>
    subst hargs
    refine Or.inl ⟨?_, (hinit htype).2 c rfl, ?_⟩
    · rw [ownPlayer_eq hown]
      exact packetReceived_middle htype (hinit htype).1
    · simp only [seenBy, ClientThreads.fieldRound, hidle]

/-- A `PACKET_INIT` puts the paddle in the middle, a `PACKET_STATE` does not move it. -/
theorem ClientPlace.receive [IsStrictOrderedRing F] {j : Fin 2} (hm : MatchInv m.room ssync s)
    (h : ClientPlace i s w) (hC : FramesApart i s (.receive j))
    (hstep : matchStep m s (.receive j) = some t) :
    ClientPlace i t (w.next i s (.receive j)) := by
  obtain ⟨p, rest, client, hdown, htaken, rfl⟩ := hm.taken hstep
  by_cases hj : j = i
  swap
  · exact h.of_same (Function.update_of_ne (Ne.symm hj) ..) rfl
  subst hj
  have hstream := hm.down j
  rw [hdown] at hstream
  have hcounts := (htaken.counts (hm.clients j) hstream).1
  have hself : (Function.update s.clients j (some client)) j = some client :=
    Function.update_self ..
  have hinit : p.type = CpongPacket.init.code → (playerOf p.data.state j).pos.y = 160 ∧
      ∀ c, s.clients j = some c → c.frameMs = 0 := by
    intro htype
    refine ⟨?_, fun c hc => ?_⟩
    swap
    · unfold ClientThreads.frameMs
      rw [hC rfl c hc p (by rw [hdown]; rfl) htype]
    rcases hstream.cons with ⟨hstate, -⟩ | ⟨-, -, hplace, -⟩
    · rw [hstate] at htype
      exact absurd htype (by decide)
    · exact hplace
  have hround := htaken.round.1
  refine ⟨fun hnone => ?_, fun press hpress => ?_, fun hlt c₁ hc₁ => ?_⟩
  · cases hself.symm.trans hnone
  · rw [clientRound_of hself, hround]
    exact h.rounds press hpress
  · cases hself.symm.trans hc₁
    rcases htaken.place hcounts.own hinit with ⟨hplace, hframe, hfield⟩ |
      ⟨c, hc, hfield, hframe, hown⟩
    · have hnone : w.pressedIn client.fieldRound = [] := by
        cases hc : s.clients j with
        | none => rw [Ledger.pressedIn, h.absent hc, List.filter_nil]
        | some c =>
          refine pressedIn_later h.rounds ?_
          rw [hfield, hc, clientRound_of hc]
          exact Nat.lt_succ_of_le c.round_le_fieldRound
      change _ = 160 + 0.5 * ((total (wordsOf (w.pressedIn client.fieldRound)) : Int) : F)
      rw [hplace, hframe, hnone]
      simp [wordsOf]
    · rw [hown, hframe, hfield]
      exact h.place hlt c hc

/-- A frame that presses a key has the paddle still to move by it. -/
theorem ClientPlace.paddleInputs {j : Fin 2} {up down : Bool} {deltaTime : I32}
    (h : ClientPlace i s w) (hC : FramesApart i s (.paddleInputs j up down deltaTime))
    (hstep : matchStep m s (.paddleInputs j up down deltaTime) = some t) :
    ClientPlace i t (w.next i s (.paddleInputs j up down deltaTime)) := by
  have hms := magnitude_next w i s (.paddleInputs j up down deltaTime)
  obtain ⟨c, c', hc, hnext, rfl⟩ := onClient_eq_some hstep
  obtain ⟨hframe, rfl⟩ := clientStep_paddleInputs hnext
  by_cases hj : j = i
  swap
  · have hledger : w.next i s (.paddleInputs j up down deltaTime) = w := if_neg hj
    rw [hledger]
    exact h.of_same (Function.update_of_ne (Ne.symm hj) ..) rfl
  subst hj
  have hledger : w.next j s (.paddleInputs j up down deltaTime) =
      w.press ⟨clientRound j s, pressMs up down deltaTime⟩ := if_pos rfl
  have hself := Function.update_self j (some { c with
    args := (receivePaddleInputs c.args up down deltaTime).2
    frame := some (inputDirection up down, deltaTime)
    pending := Tally.record c.pending
      ⟨c.tag, BitVec.ofInt 32 (inputDirection up down) * deltaTime⟩ }) s.clients
  have hkey : keyTime j (.paddleInputs j up down deltaTime : MatchSection F) =
      inputDirection up down * deltaTime.toInt := if_pos rfl
  rw [hkey] at hms
  rw [hledger] at hms ⊢
  refine ⟨fun hnone => ?_, fun press hpress => ?_, fun hlt c₁ hc₁ => ?_⟩
  · cases hself.symm.trans hnone
  · have hle : press.round ≤ c.round := by
      rw [← clientRound_of hc]
      rcases mem_press hpress with hold | rfl
      · exact h.rounds press hold
      · exact le_rfl
    rw [clientRound_of hself]
    exact hle
  · cases hself.symm.trans hc₁
    rw [hms] at hlt
    have hold := h.place (by omega) c hc
    have hvalue : (pressMs up down deltaTime).toInt = inputDirection up down * deltaTime.toInt := by
      apply toInt_press
      omega
    have hnone : c.frameMs = 0 := by
      unfold ClientThreads.frameMs
      rw [hframe]
    have hadded : (if clientRound j s = c.fieldRound then
        (pressMs up down deltaTime).toInt else 0) = inputDirection up down * deltaTime.toInt := by
      by_cases hfield : c.fieldRound = c.round
      · rw [if_pos ((clientRound_of hc).trans hfield.symm), hvalue]
      · rw [← hvalue, hC rfl c hc hfield]
        exact ite_self _
    change (ownPlayer c.args.localState).pos.y +
        0.5 * ((inputDirection up down * deltaTime.toInt : Int) : F) = 160 + 0.5 * ((total (wordsOf
          ((w.press ⟨clientRound j s, pressMs up down deltaTime⟩).pressedIn c.fieldRound)) : Int) : F)
    rw [hnone, Int.cast_zero, mul_zero, add_zero] at hold
    rw [total_press, hadded, hold]
    push_cast
    ring

theorem ClientPlace.localState {j : Fin 2} {fuel : Nat} (h : ClientPlace i s w)
    (hstep : matchStep m s (.localState j fuel) = some t) :
    ClientPlace i t (w.next i s (.localState j fuel)) := by
  obtain ⟨c, c', hc, hnext, rfl⟩ := onClient_eq_some hstep
  obtain ⟨direction, deltaTime, localState, hframe, hlocal, rfl⟩ := clientStep_localState hnext
  refine h.update hc le_rfl rfl ?_ rfl
  have hms : c.frameMs = direction * deltaTime.toInt := by
    unfold ClientThreads.frameMs
    rw [hframe]
  change (ownPlayer localState).pos.y + 0.5 * ((0 : Int) : F) = _
  rw [updateLocalState_own hlocal, hms, Int.cast_zero, mul_zero, add_zero]

theorem ClientPlace.step [IsStrictOrderedRing F] {l : MatchSection F} (hm : MatchInv m.room ssync s)
    (h : ClientPlace i s w) (hC : FramesApart i s l) (hstep : matchStep m s l = some t) :
    ClientPlace i t (w.next i s l) := by
  cases l with
  | check j garbage =>
    obtain ⟨p, rest, receiver, -, -, -, rfl⟩ := matchStep_check hstep (hm.up j)
    exact h.of_same rfl (Ledger.pressed_next (by simp))
  | accumulate =>
    obtain ⟨server, -, rfl⟩ := onServer_eq_some hstep
    exact h.of_same rfl rfl
  | inputs =>
    obtain ⟨server, -, rfl⟩ := onServer_eq_some hstep
    exact h.of_same rfl rfl
  | advance tick =>
    obtain ⟨server, -, rfl⟩ := onServer_eq_some hstep
    exact h.of_same rfl rfl
  | score rands =>
    obtain ⟨server, -, rfl⟩ := onServer_eq_some hstep
    exact h.of_same rfl rfl
  | announce =>
    obtain ⟨k, -, rfl⟩ := matchStep_announce hstep
    exact h.of_same rfl rfl
  | receive j => exact h.receive hm hC hstep
  | setSync j =>
    obtain ⟨c, c', hc, hnext, rfl⟩ := onClient_eq_some hstep
    obtain ⟨sync, hreplaced, rfl⟩ := clientStep_setSync hnext
    refine h.update hc (Nat.le_succ _) ?_ rfl rfl
    simp only [ClientThreads.fieldRound, hreplaced]
  | zeroInput j =>
    obtain ⟨c, c', hc, hnext, rfl⟩ := onClient_eq_some hstep
    obtain ⟨stale, hsynced, rfl⟩ := clientStep_zeroInput hnext
    refine h.update hc le_rfl ?_ rfl (Ledger.pressed_next (by simp))
    simp only [ClientThreads.fieldRound, hsynced]
  | paddleInputs j up down deltaTime => exact h.paddleInputs hC hstep
  | localState j fuel => exact h.localState hstep
  | network j =>
    obtain ⟨c, hc, rfl⟩ := matchStep_network hstep
    have hnext : ClientPlace i
        { s with clients := Function.update s.clients j (some c.networked) }
        (w.next i s (.network j)) := h.update hc le_rfl rfl rfl (Ledger.pressed_next (by simp))
    exact ⟨hnext.absent, hnext.rounds, hnext.place⟩

end ClientPaddle

section WholeMatch

structure PlaceInv (m : Match F) (ssync : I8) (i : Fin 2) (c : MatchThreads F × Ledger) :
    Prop where
  ledger : LedgerInv m ssync i c
  fresh : c.2.leftover = 0
  server : ServerPlace i c.1 c.2

theorem PlaceInv.start (rands : Rands) {g : Globals F} (hfresh : inputOf g i = 0) :
    PlaceInv m g.ssync i (ledgerStart m rands g i) := by
  refine ⟨.start rands g i, hfresh, fun _ hc => absurd hc List.not_mem_nil, fun _ => ?_⟩
  have hplace : (matchBegin m rands g).server.placeOf i = 160 := (playerOf_initGame _ rands i).1
  change (matchBegin m rands g).server.placeOf i = _
  rw [hplace]
  simp [wordsOf, Ledger.appliedIn, ledgerStart, Ledger.start]

theorem PlaceInv.step {c c' : MatchThreads F × Ledger} {l : MatchSection F}
    (hdistinct : m.room.clients 0 ≠ m.room.clients 1) (h : PlaceInv m ssync i c)
    (hstep : ledgerStep m i c l = some c') : PlaceInv m ssync i c' := by
  have hledger := h.ledger.step hdistinct hstep
  obtain ⟨t, ht, rfl⟩ := Option.map_eq_some_iff.mp hstep
  exact ⟨hledger, Ledger.leftover_next h.fresh l,
    h.server.step h.ledger.inv h.ledger.accounted h.fresh ht⟩

theorem ClientPlace.start (rands : Rands) (g : Globals F) (i : Fin 2) :
    ClientPlace i (matchBegin m rands g) (.start (inputOf g i)) := by
  refine ⟨fun _ => rfl, fun _ hpress => absurd hpress List.not_mem_nil, fun _ c hc => ?_⟩
  cases hc

/-- What is known of the paddles at the end of a run. -/
theorem PlaceInv.of_run [IsStrictOrderedRing F] (hdistinct : m.room.clients 0 ≠ m.room.clients 1)
    {rands : Rands} {g : Globals F} {ls : List (MatchSection F)}
    (h : System.run (matchStep m) (matchBegin m rands g) ls = some s) (i : Fin 2)
    (hfresh : inputOf g i = 0) :
    ∃ w, System.run (ledgerStep m i) (ledgerStart m rands g i) ls = some (s, w) ∧
      PlaceInv m g.ssync i (s, w) ∧ magnitude (wordsOf w.pressed) = keyMs i ls ∧
      (System.AllSteps (matchStep m) (FramesApart i) (matchBegin m rands g) ls →
        ClientPlace i s w) := by
  obtain ⟨w, hrun⟩ := run_ledger rands g i h
  have hinv := System.invariant (fun c l c' hc hst => PlaceInv.step hdistinct hc hst)
    (PlaceInv.start rands hfresh) hrun
  refine ⟨w, hrun, hinv, ?_, fun hapart => ?_⟩
  · have hadds : ∀ c l d, ledgerStep m i c l = some d → magnitude (wordsOf d.2.pressed) =
        magnitude (wordsOf c.2.pressed) + (keyTime i l).natAbs := by
      intro c l d hd
      obtain ⟨t, -, rfl⟩ := Option.map_eq_some_iff.mp hd
      exact magnitude_next c.2 i c.1 l
    have hsum := System.run_sum (f := fun c : MatchThreads F × Ledger =>
      magnitude (wordsOf c.2.pressed)) hadds hrun
    exact hsum.trans (Nat.zero_add _)
  · have hlift : System.AllSteps (ledgerStep m i) (fun c => FramesApart i c.1)
        (ledgerStart m rands g i) ls := by
      refine System.AllSteps.of_map (fun c l c' hst => ?_) hapart
      obtain ⟨t, ht, rfl⟩ := Option.map_eq_some_iff.mp hst
      exact ht
    have hclient := System.invariant_of_allSteps
      (I := fun c : MatchThreads F × Ledger => MatchInv m.room g.ssync c.1 ∧
        ClientPlace i c.1 c.2) (fun c l c' hc hC hst => ?_)
      ⟨MatchInv.start rands g, ClientPlace.start rands g i⟩ hlift hrun
    · exact hclient.2
    · obtain ⟨t, ht, rfl⟩ := Option.map_eq_some_iff.mp hst
      exact ⟨hc.1.step ht, hc.2.step hc.1 hC ht⟩

/-- If a player has held its keys for less than 2^31 milliseconds in all, the server has its
paddle where the input taken in the round puts it, and no further from the middle than its keys
can have moved it, in any interleaving. The client has it where the keys held in its round do, if
no frame overlaps the replacement of its field. -/
theorem paddles_follow_keys [IsStrictOrderedRing F]
    (hdistinct : m.room.clients 0 ≠ m.room.clients 1) {rands : Rands} {g : Globals F}
    {ls : List (MatchSection F)}
    (h : System.run (matchStep m) (matchBegin m rands g) ls = some s) (i : Fin 2)
    (hfresh : inputOf g i = 0) (hshort : keyMs i ls < 2 ^ 31) :
    ∃ w, System.run (ledgerStep m i) (ledgerStart m rands g i) ls = some (s, w) ∧
      w.pressed.Perm w.places ∧
      s.server.placeOf i = 160 + 0.5 * (total (wordsOf (w.appliedIn (serverRound s))) : F) ∧
      |s.server.placeOf i - 160| ≤ 0.5 * (keyMs i ls : F) ∧
      (System.AllSteps (matchStep m) (FramesApart i) (matchBegin m rands g) ls →
        ∀ c, s.clients i = some c →
          (ownPlayer c.args.localState).pos.y + 0.5 * (c.frameMs : F) =
            160 + 0.5 * (total (wordsOf (w.pressedIn c.fieldRound)) : F)) := by
  obtain ⟨w, hrun, hinv, hms, hclient⟩ := PlaceInv.of_run hdistinct h i hfresh
  rw [← hms] at hshort ⊢
  have hacc : Accounted m g.ssync i s w := hinv.ledger.accounted
  have hplace : s.server.placeOf i = _ := hinv.server.place hshort
  refine ⟨w, hrun, hacc.all, hplace, ?_, fun hapart => (hclient hapart).place hshort⟩
  have hle : |total (wordsOf (w.appliedIn (serverRound s)))| ≤
      (magnitude (wordsOf w.pressed) : Int) := by
    rw [Int.abs_eq_natAbs]
    exact_mod_cast (natAbs_total_le _).trans (hacc.magnitude_appliedIn_le _)
  have hhalf : (0 : F) < 0.5 := by norm_num
  rw [hplace, add_sub_cancel_left, abs_mul, abs_of_pos hhalf]
  refine mul_le_mul_of_nonneg_left ?_ hhalf.le
  exact_mod_cast hle

end WholeMatch

end

instance {F : Type} (i : Fin 2) (s : MatchThreads F) (l : MatchSection F) :
    Decidable (FramesApart i s l) :=
  match l with
  | .receive _ => inferInstanceAs (Decidable (_ → ∀ c ∈ s.clients i, ∀ p ∈ (s.down i).head?, _ → _))
  | .paddleInputs .. => inferInstanceAs (Decidable (_ → ∀ c ∈ s.clients i, _ → _))
  | .check .. | .accumulate | .inputs | .advance _ | .score _ | .announce | .setSync _
  | .zeroInput _ | .localState .. | .network _ => isTrue trivial

/-- The second player holds `down`, and later `up` in a frame that the tick comes in between. -/
def twoKeys : List (MatchSection ℚ) :=
  [.receive 1, .paddleInputs 1 false true 16, .network 1, .localState 1 1, .check 1 Packet.zero,
    .paddleInputs 1 true false 6, .accumulate, .inputs, .localState 1 1,
    .advance ⟨1, 1, 0, ⟨0, 0, 0⟩⟩, .announce]

theorem paddles_follow_keys_twoKeys :
    ∃ s w, System.run (ledgerStep mixedMatch 1) (ledgerStart mixedMatch ⟨0, 1, 1⟩ .zero 1)
        twoKeys = some (s, w) ∧
      s.server.placeOf 1 = 160 + 0.5 * 16 ∧ |s.server.placeOf 1 - 160| ≤ 0.5 * (22 : Nat) ∧
      ∃ c, s.clients 1 = some c ∧ c.frameMs = 0 ∧
        (ownPlayer c.args.localState).pos.y = 160 + 0.5 * 10 := by
  have hrun : (System.run (matchStep mixedMatch) (matchBegin mixedMatch ⟨0, 1, 1⟩ .zero)
      twoKeys).map (fun s => (serverRound s,
        (s.clients 1).map fun c => (c.frameMs, c.fieldRound))) = some (0, some (0, 0)) := by
    decide +kernel
  have hledger : (System.run (ledgerStep mixedMatch 1) (ledgerStart mixedMatch ⟨0, 1, 1⟩ .zero 1)
      twoKeys).map (fun c => (total (wordsOf (c.2.appliedIn 0)),
        total (wordsOf (c.2.pressedIn 0)))) = some (16, 10) := by
    decide +kernel
  have hapart : System.AllSteps (matchStep mixedMatch) (FramesApart 1)
      (matchBegin mixedMatch ⟨0, 1, 1⟩ .zero) twoKeys := by
    decide +kernel
  obtain ⟨s, hs, hvalues⟩ := Option.map_eq_some_iff.mp hrun
  obtain ⟨w, hw, -, hplace, hle, hclient⟩ :=
    paddles_follow_keys (by decide) hs 1 (by decide) (by decide)
  rw [hw] at hledger
  simp only [Option.map_some, Option.some.injEq, Prod.mk.injEq] at hvalues hledger
  obtain ⟨hround, hvalues⟩ := hvalues
  obtain ⟨happlied, hpressed⟩ := hledger
  obtain ⟨c, hc, hcvalues⟩ := Option.map_eq_some_iff.mp hvalues
  obtain ⟨hframe, hfield⟩ := Prod.mk.inj hcvalues
  have hown := hclient hapart c hc
  rw [hround, happlied] at hplace
  rw [hframe, hfield, hpressed, Int.cast_zero, mul_zero, add_zero] at hown
  have hms : keyMs 1 twoKeys = 22 := by decide
  rw [hms] at hle
  exact ⟨s, w, hw, hplace, hle, c, hc, hframe, hown⟩

end CPong
