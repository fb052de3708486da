import CPong.Lib.System
import CPong.Server

/-!
# Rooms whose send fails

The rooms of one server process with the outcomes of their sends: the two messages at the start
of `start_pong_game` and the broadcast of every tick.
-/

namespace CPong

set_option autoImplicit false

open Lib.System

/-- A message and whether `server_send` delivered it. -/
structure SendRecord (F : Type) where
  client : I32
  packet : Packet F
  sent : Bool
deriving DecidableEq

/-- A room and its threads: `playing` once the two threads of its game are created, `running`
while the one that sends the state goes on. -/
structure GameRoom (F : Type) where
  room : Room
  playing : Bool
  running : Bool
  isDisbanded : Bool
  disbands : Nat
  sends : List (SendRecord F)

structure RoomsServer (F : Type) where
  globals : Globals F
  rooms : Nat → Option (GameRoom F)

/-- The steps of a room, by whether the send to each of its clients succeeds. -/
inductive DisbandEvent (F : Type) where
  | start (room : Room) (rands : Rands) (sent : Fin 2 → Bool)
  | tick (tick : Tick) (sent : Fin 2 → Bool)
  | input (i : Fin 2) (res : Int) (packet : Packet F)

structure DisbandLabel (F : Type) where
  key : Nat
  event : DisbandEvent F

def handleDisband {F : Type} (r : GameRoom F) : GameRoom F :=
  { r with isDisbanded := true, disbands := r.disbands + 1 }

/-- The `for` loop over the clients of a room: it stops at the first send that fails. -/
def sendEach {F : Type} (sent : Fin 2 → Bool) :
    List (Fin 2 × I32 × Packet F) → List (SendRecord F) × Bool
  | [] => ([], true)
  | (i, client, packet) :: rest =>
    if sent i then
      let (records, all) := sendEach sent rest
      (⟨client, packet, true⟩ :: records, all)
    else ([⟨client, packet, false⟩], false)

/-- The messages of one loop over the clients of a room, each with its index. -/
def addressed {F : Type} (packets : List (I32 × Packet F)) : List (Fin 2 × I32 × Packet F) :=
  [(0 : Fin 2), 1].zip packets

section
variable {F : Type} [Field F]

def RoomsServer.initial : RoomsServer F := ⟨.zero, fun _ => none⟩

variable [LinearOrder F] [FloorRing F] [Libm F]

/-- `start_pong_game`: its `return` after a failed send leaves the room as it is. -/
def startGame (room : Room) (rands : Rands) (sent : Fin 2 → Bool) (g : Globals F) :
    GameRoom F × Globals F :=
  let (packets, g) := startPongGame room rands g
  let (sends, all) := sendEach sent (addressed packets)
  (⟨room, all, all, false, 0, sends⟩, g)

/-- `send_state`: `room_broadcast` disbands the room if a send fails, and the thread goes on
while the room is not disbanded. -/
def tickGame (tick : Tick) (sent : Fin 2 → Bool) (r : GameRoom F) (g : Globals F) :
    Option (GameRoom F × Globals F) := do
  let (packet, g) ← sendState tick g
  let (sends, all) := sendEach sent (addressed (roomBroadcast r.room packet))
  let r := { r with sends := r.sends ++ sends }
  if all then return ({ r with running := !r.isDisbanded }, g)
  else return ({ handleDisband r with running := false }, g)

def disbandStep (s : RoomsServer F) (l : DisbandLabel F) : Option (RoomsServer F) :=
  match s.rooms l.key, l.event with
  | none, .start room rands sent =>
    let (r, g) := startGame room rands sent s.globals
    some ⟨g, Function.update s.rooms l.key (some r)⟩
  | some r, .tick tick sent =>
    if r.running then
      (tickGame tick sent r s.globals).map fun (r, g) =>
        ⟨g, Function.update s.rooms l.key (some r)⟩
    else none
  | some r, .input i res packet =>
    if r.playing then
      some { s with globals := (onInputReady s.globals (r.room.clients i) res packet).2 }
    else none
  | _, _ => none

end

/-- A send to a client of the room that failed has disbanded the room, once, and was the last. -/
def DisbandsOnFailure {F : Type} (r : GameRoom F) : Prop :=
  (∃ x ∈ r.sends, x.sent = false) →
    r.isDisbanded = true ∧ r.disbands = 1 ∧
      ∃ earlier last, r.sends = earlier ++ [last] ∧ last.sent = false ∧ ∀ x ∈ earlier, x.sent = true

/-- The messages of `start_pong_game` are delivered. -/
def InitsSent {F : Type} (_ : RoomsServer F) (l : DisbandLabel F) : Prop :=
  match l.event with
  | .start _ _ sent => sent 0 = true ∧ sent 1 = true
  | _ => True

/-- A room whose thread goes on has had no failure. -/
def Unharmed {F : Type} (r : GameRoom F) : Prop :=
  r.running = true → (∀ x ∈ r.sends, x.sent = true) ∧ r.isDisbanded = false ∧ r.disbands = 0

section Loop
variable {F : Type} {sent : Fin 2 → Bool} {packets : List (Fin 2 × I32 × Packet F)}

/-- The loop delivers everything, or it ends with a send that fails. -/
theorem sendEach_cases (sent : Fin 2 → Bool) (packets : List (Fin 2 × I32 × Packet F)) :
    ((sendEach sent packets).2 = true ∧ ∀ x ∈ (sendEach sent packets).1, x.sent = true) ∨
      ((sendEach sent packets).2 = false ∧ ∃ earlier last,
        (sendEach sent packets).1 = earlier ++ [last] ∧ last.sent = false ∧
          ∀ x ∈ earlier, x.sent = true) := by
  induction packets with
  | nil => exact Or.inl ⟨rfl, fun x hx => (nomatch hx)⟩
  | cons p packets ih =>
    obtain ⟨i, client, packet⟩ := p
    unfold sendEach
    by_cases hsent : sent i = true
    · rw [if_pos hsent]
      dsimp only
      rcases ih with ⟨hall, hok⟩ | ⟨hall, earlier, last, hsplit, hlast, hok⟩
      · left
        refine ⟨hall, ?_⟩
        intro x hx
        rcases List.mem_cons.mp hx with rfl | hx
        · rfl
        · exact hok x hx
      · right
        refine ⟨hall, ⟨client, packet, true⟩ :: earlier, last, ?_, hlast, ?_⟩
        · rw [hsplit, List.cons_append]
        · intro x hx
          rcases List.mem_cons.mp hx with rfl | hx
          · rfl
          · exact hok x hx
    · rw [if_neg hsent]
      right
      exact ⟨rfl, [], ⟨client, packet, false⟩, rfl, rfl, fun x hx => (nomatch hx)⟩

theorem sendEach_addressed (sent : Fin 2 → Bool) (p q : I32 × Packet F) :
    (sendEach sent (addressed [p, q])).2 = true ↔ sent 0 = true ∧ sent 1 = true := by
  change (sendEach sent [(0, p), (1, q)]).2 = true ↔ _
  cases h0 : sent 0 <;> cases h1 : sent 1 <;> simp [sendEach, h0, h1]

end Loop

section Step
variable {F : Type} [Field F] [LinearOrder F] [FloorRing F] [Libm F] {s t : RoomsServer F}
  {l : DisbandLabel F} {g g' : Globals F} {r r' : GameRoom F} {room : Room} {rands : Rands}
  {sent : Fin 2 → Bool} {tick : Tick}

theorem startGame_unharmed : Unharmed (startGame room rands sent g).1 := by
  intro hrun
  refine ⟨?_, rfl, rfl⟩
  change (sendEach sent (addressed (startPongGame room rands g).1)).2 = true at hrun
  rcases sendEach_cases sent (addressed (startPongGame room rands g).1) with ⟨-, hok⟩ | ⟨hall, -⟩
  · exact hok
  · exact Bool.noConfusion (hrun.symm.trans hall)

/-- A room whose first messages are not all delivered is not disbanded. -/
theorem startGame_disbands :
    DisbandsOnFailure (startGame room rands sent g).1 ↔ sent 0 = true ∧ sent 1 = true := by
  have hinit : (sendEach sent (addressed (startPongGame room rands g).1)).2 = true ↔
      sent 0 = true ∧ sent 1 = true :=
    sendEach_addressed sent _ _
  rw [← hinit]
  rcases sendEach_cases sent (addressed (startPongGame room rands g).1) with
    ⟨hall, hok⟩ | ⟨hall, earlier, last, hsplit, hlast, -⟩
  · refine iff_of_true ?_ hall
    rintro ⟨x, hx, hfailed⟩
    exact Bool.noConfusion ((hok x hx).symm.trans hfailed)
  · refine iff_of_false ?_ (by rw [hall]; decide)
    intro hdisbands
    have hfailed : ∃ x ∈ (startGame room rands sent g).1.sends, x.sent = false := by
      refine ⟨last, ?_, hlast⟩
      change last ∈ (sendEach sent (addressed (startPongGame room rands g).1)).1
      rw [hsplit]
      exact List.mem_append_right _ List.mem_cons_self
    exact Bool.noConfusion (hdisbands hfailed).1

theorem tickGame_room (h : tickGame tick sent r g = some (r', g')) (hr : Unharmed r)
    (hrun : r.running = true) : Unharmed r' ∧ DisbandsOnFailure r' := by
  obtain ⟨hearlier, hdisbanded, hdisbands⟩ := hr hrun
  obtain ⟨⟨packet, g₁⟩, -, hrest⟩ := Option.bind_eq_some_iff.mp h
  dsimp only at hrest
  rcases sendEach_cases sent (addressed (roomBroadcast r.room packet)) with
    ⟨hall, hok⟩ | ⟨hall, earlier, last, hsplit, hlast, hok⟩
  · rw [hall] at hrest
    cases hrest
    have hsent : ∀ x ∈ r.sends ++ (sendEach sent (addressed (roomBroadcast r.room packet))).1,
        x.sent = true := by
      intro x hx
      exact (List.mem_append.mp hx).elim (hearlier x) (hok x)
    refine ⟨fun _ => ⟨hsent, hdisbanded, hdisbands⟩, ?_⟩
    rintro ⟨x, hx, hfailed⟩
    exact Bool.noConfusion ((hsent x hx).symm.trans hfailed)
  · rw [hall] at hrest
    cases hrest
    refine ⟨fun hno => (nomatch hno), ?_⟩
    intro _
    refine ⟨rfl, congrArg Nat.succ hdisbands, r.sends ++ earlier, last, ?_, hlast, ?_⟩
    · change r.sends ++ (sendEach sent (addressed (roomBroadcast r.room packet))).1 = _
      rw [hsplit, List.append_assoc]
    · intro x hx
      exact (List.mem_append.mp hx).elim (hearlier x) (hok x)

/-- What a step does: a game starts, a room with a thread ticks, or the rooms stay. -/
theorem disbandStep_cases (h : disbandStep s l = some t) :
    (∃ room rands sent, l.event = .start room rands sent ∧ s.rooms l.key = none ∧
        t.rooms = Function.update s.rooms l.key (some (startGame room rands sent s.globals).1)) ∨
      (∃ tick sent r r' g', l.event = .tick tick sent ∧ s.rooms l.key = some r ∧
        r.running = true ∧ tickGame tick sent r s.globals = some (r', g') ∧
        t.rooms = Function.update s.rooms l.key (some r')) ∨
      ((∃ i res packet, l.event = .input i res packet) ∧ t.rooms = s.rooms) := by
  unfold disbandStep at h
  split at h
  · rename_i room rands sent hfree hevent
    cases h
    exact Or.inl ⟨room, rands, sent, hevent, hfree, rfl⟩
  · rename_i r tick sent hroom hevent
    split at h
    · rename_i hrun
      obtain ⟨⟨r', g'⟩, htick, hres⟩ := Option.map_eq_some_iff.mp h
      cases hres
      exact Or.inr (Or.inl ⟨tick, sent, r, r', g', hevent, hroom, hrun, htick, rfl⟩)
    · cases h
  · rename_i r i res packet hroom hevent
    split at h
    · cases h
      exact Or.inr (Or.inr ⟨⟨i, res, packet, hevent⟩, rfl⟩)
    · cases h
  · cases h

def RoomsUnharmed (s : RoomsServer F) : Prop := ∀ k r, s.rooms k = some r → Unharmed r

def RoomsDisband (s : RoomsServer F) : Prop := ∀ k r, s.rooms k = some r → DisbandsOnFailure r

omit [Field F] [LinearOrder F] [FloorRing F] [Libm F] in
/-- A statement about all rooms after one of them has changed. -/
theorem forall_rooms_update {P : GameRoom F → Prop} {rooms : Nat → Option (GameRoom F)} {key : Nat}
    (ht : t.rooms = Function.update rooms key (some r)) :
    (∀ k r', t.rooms k = some r' → P r') ↔
      P r ∧ ∀ k, k ≠ key → ∀ r', rooms k = some r' → P r' := by
  rw [ht]
  constructor
  · intro hall
    refine ⟨hall key r (Function.update_self _ _ _), ?_⟩
    intro k hk r' hr'
    exact hall k r' ((Function.update_of_ne hk _ _).trans hr')
  · rintro ⟨hnew, hold⟩ k r' hr'
    by_cases hk : k = key
    · rw [hk, Function.update_self, Option.some.injEq] at hr'
      rwa [← hr']
    · rw [Function.update_of_ne hk] at hr'
      exact hold k hk r' hr'

theorem RoomsUnharmed.next (h : RoomsUnharmed s) (hst : disbandStep s l = some t) :
    RoomsUnharmed t := by
  rcases disbandStep_cases hst with ⟨room, rands, sent, -, -, ht⟩ |
    ⟨tick, sent, r, r', g', -, hroom, hrun, htick, ht⟩ | ⟨-, ht⟩
  · exact (forall_rooms_update ht).mpr ⟨startGame_unharmed, fun k _ => h k⟩
  · exact (forall_rooms_update ht).mpr
      ⟨(tickGame_room htick (h _ r hroom) hrun).1, fun k _ => h k⟩
  · rw [RoomsUnharmed, ht]
    exact h

theorem RoomsUnharmed.disband_iff (h : RoomsUnharmed s) (hst : disbandStep s l = some t) :
    RoomsDisband t ↔ RoomsDisband s ∧ InitsSent s l := by
  rcases disbandStep_cases hst with ⟨room, rands, sent, hevent, hfree, ht⟩ |
    ⟨tick, sent, r, r', g', hevent, hroom, hrun, htick, ht⟩ | ⟨⟨i, res, packet, hevent⟩, ht⟩
  · have hinits : InitsSent s l ↔ sent 0 = true ∧ sent 1 = true := by rw [InitsSent, hevent]
    rw [RoomsDisband, forall_rooms_update ht, startGame_disbands, hinits, and_comm]
    refine and_congr_left fun _ => ⟨?_, fun hall k _ => hall k⟩
    intro hall k r hr
    exact hall k (fun hk => by rw [hk, hfree] at hr; cases hr) r hr
  · have hinits : InitsSent s l := by
      rw [InitsSent, hevent]
      trivial
    rw [RoomsDisband, forall_rooms_update ht]
    constructor
    · rintro ⟨-, hall⟩
      refine ⟨?_, hinits⟩
      intro k r₀ hr₀
      by_cases hk : k = l.key
      · rw [hk, hroom, Option.some.injEq] at hr₀
        subst hr₀
        rintro ⟨x, hx, hfailed⟩
        exact Bool.noConfusion (((h _ r hroom hrun).1 x hx).symm.trans hfailed)
      · exact hall k hk r₀ hr₀
    · rintro ⟨hall, -⟩
      exact ⟨(tickGame_room htick (h _ r hroom) hrun).2, fun k _ => hall k⟩
  · have hinits : InitsSent s l := by
      rw [InitsSent, hevent]
      trivial
    rw [RoomsDisband, ht]
    exact (and_iff_left hinits).symm

omit [LinearOrder F] [FloorRing F] [Libm F] in
theorem initial_rooms {P : GameRoom F → Prop} :
    ∀ k r, (RoomsServer.initial : RoomsServer F).rooms k = some r → P r := by
  intro k r h
  cases h

/-- In the state that a run reaches, every room with a failed send is disbanded, once and for
all, exactly if no message of a `start_pong_game` has failed on the way. -/
theorem failed_sends_disband_iff {ls : List (DisbandLabel F)}
    (h : run disbandStep RoomsServer.initial ls = some s) :
    (∀ k r, s.rooms k = some r → DisbandsOnFailure r) ↔
      AllSteps disbandStep InitsSent RoomsServer.initial ls := by
  have hiff := allSteps_iff (P := RoomsDisband) (I := RoomsUnharmed)
    (fun _ _ _ hs hst => hs.next hst) (fun _ _ _ hs hst => hs.disband_iff hst)
    initial_rooms h
  exact hiff.trans (and_iff_right initial_rooms)

end Step

def pairedRoom : Room := ⟨![4, 5]⟩

/-- A game starts and its first tick does not reach the second client. -/
def leftInGame : List (DisbandLabel ℚ) :=
  [⟨0, .start pairedRoom ⟨0, 0, 0⟩ ![true, true]⟩, ⟨0, .tick ⟨16, 2, -1, ⟨0, 0, 0⟩⟩ ![true, false]⟩]

/-- The first client is gone before its game starts. -/
def leftBeforeGame : List (DisbandLabel ℚ) :=
  [⟨0, .start pairedRoom ⟨0, 0, 0⟩ ![false, true]⟩]

theorem failed_sends_disband_leftInGame :
    (∀ k r, ((run disbandStep RoomsServer.initial leftInGame).get (by decide +kernel)).rooms k =
        some r → DisbandsOnFailure r) ↔
      AllSteps disbandStep InitsSent RoomsServer.initial leftInGame :=
  failed_sends_disband_iff (Option.some_get _).symm

theorem leftBeforeGame_undisbanded :
    ∃ s r, run disbandStep RoomsServer.initial leftBeforeGame = some s ∧ s.rooms 0 = some r ∧
      (∃ x ∈ r.sends, x.sent = false) ∧ r.isDisbanded = false ∧ r.disbands = 0 ∧
      ¬ DisbandsOnFailure r := by
  refine ⟨_, _, rfl, rfl, ⟨_, List.mem_cons_self, rfl⟩, rfl, rfl, ?_⟩
  intro h
  exact Bool.noConfusion (h ⟨_, List.mem_cons_self, rfl⟩).1

end CPong
