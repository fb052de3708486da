import CPong.Server
import CPong.Lib.System

/-!
# Several rooms on one server

Every interleaving of the `start_pong_game` calls, the `send_state` ticks and the
`on_input_ready` steps of any number of rooms.
-/

namespace CPong

set_option autoImplicit false

open Lib

/-- What a room does in one step. The tick and input threads of a room are created by its
`start_pong_game`. -/
inductive RoomEvent (F : Type) where
  | start (rands : Rands)
  | tick (tick : Tick)
  | input (i : Fin 2) (res : Int) (packet : Packet F)

structure RoomLabel (F : Type) where
  room : Room
  event : RoomEvent F

/-- A server process: its static variables, the rooms whose games have started, and the
packets sent so far. -/
structure ServerProcess (F : Type) where
  globals : Globals F
  started : List Room
  sent : List (I32 × Packet F)

section
variable {F : Type} [Field F]

def ServerProcess.initial : ServerProcess F := ⟨.zero, [], []⟩

variable [LinearOrder F] [FloorRing F] [Libm F]

def roomsStep (s : ServerProcess F) (l : RoomLabel F) : Option (ServerProcess F) :=
  match l.event with
  | .start rands =>
    if l.room ∈ s.started then none
    else
      let (packets, g) := startPongGame l.room rands s.globals
      some ⟨g, l.room :: s.started, s.sent ++ packets⟩
  | .tick tick =>
    if l.room ∈ s.started then
      (sendState tick s.globals).map fun (packet, g) =>
        ⟨g, s.started, s.sent ++ roomBroadcast l.room packet⟩
    else none
  | .input i res packet =>
    if l.room ∈ s.started then
      some { s with globals := (onInputReady s.globals (l.room.clients i) res packet).2 }
    else none

end

def DistinctClients (rooms : Set Room) : Prop :=
  ∀ r ∈ rooms, ∀ r' ∈ rooms, ∀ i j, r.clients i = r'.clients j → r = r' ∧ i = j

def RoomLabel.isOf {F : Type} (room : Room) (l : RoomLabel F) : Bool := l.room = room

def sentTo {F : Type} (room : Room) (sent : List (I32 × Packet F)) : List (I32 × Packet F) :=
  sent.filter fun p => p.1 = room.clients 0 ∨ p.1 = room.clients 1

/-- The shared variables are as at the start of the program where the room reads them before
it writes them, and while the room plays no other room starts or ticks. -/
def Undisturbed {F : Type} (room : Room) (s : ServerProcess F) (l : RoomLabel F) : Prop :=
  match l.event with
  | .start _ =>
    if l.room = room then s.globals.ssync = 0 ∧ s.globals.input1 = 0 ∧ s.globals.input2 = 0
    else room ∉ s.started
  | .tick _ => l.room = room ∨ room ∉ s.started
  | .input .. => True

section
variable {F : Type} {room other : Room}

theorem sentTo_append (sent packets : List (I32 × Packet F)) :
    sentTo room (sent ++ packets) = sentTo room sent ++ sentTo room packets :=
  List.filter_append sent packets

theorem sentTo_own {packets : List (I32 × Packet F)}
    (h : ∀ p ∈ packets, p.1 = room.clients 0 ∨ p.1 = room.clients 1) :
    sentTo room packets = packets := by
  apply List.filter_eq_self.mpr
  intro p hp
  exact decide_eq_true (h p hp)

theorem sentTo_other {packets : List (I32 × Packet F)}
    (hne : ∀ i j, other.clients i ≠ room.clients j)
    (h : ∀ p ∈ packets, p.1 = other.clients 0 ∨ p.1 = other.clients 1) :
    sentTo room packets = [] := by
  apply List.filter_eq_nil_iff.mpr
  intro p hp
  rw [decide_eq_true_iff]
  rcases h p hp with hp | hp
  · rw [hp]
    exact not_or.mpr ⟨hne 0 0, hne 0 1⟩
  · rw [hp]
    exact not_or.mpr ⟨hne 1 0, hne 1 1⟩

theorem mem_roomBroadcast {packet : Packet F} :
    ∀ p ∈ roomBroadcast room packet, p.1 = room.clients 0 ∨ p.1 = room.clients 1 := by
  intro p hp
  simp only [roomBroadcast, List.mem_cons, List.not_mem_nil, or_false] at hp
  rcases hp with rfl | rfl
  · exact Or.inl rfl
  · exact Or.inr rfl

variable [Field F] [LinearOrder F] [FloorRing F] [Libm F]

theorem mem_startPongGame {rands : Rands} {g : Globals F} :
    ∀ p ∈ (startPongGame room rands g).1, p.1 = room.clients 0 ∨ p.1 = room.clients 1 := by
  intro p hp
  simp only [startPongGame, List.mem_cons, List.not_mem_nil, or_false] at hp
  rcases hp with rfl | rfl
  · exact Or.inl rfl
  · exact Or.inr rfl

variable {s s' t : ServerProcess F}

attribute [local simp] roomsStep

theorem roomsStep_start {rands : Rands} : roomsStep s ⟨room, .start rands⟩ = some t ↔
    room ∉ s.started ∧ t = ⟨(startPongGame room rands s.globals).2, room :: s.started,
      s.sent ++ (startPongGame room rands s.globals).1⟩ := by
  by_cases hin : room ∈ s.started
  · simp [hin]
  · simp [hin, eq_comm]

theorem roomsStep_tick {tick : Tick} : roomsStep s ⟨room, .tick tick⟩ = some t ↔
    room ∈ s.started ∧ ∃ packet g, sendState tick s.globals = some (packet, g) ∧
      t = ⟨g, s.started, s.sent ++ roomBroadcast room packet⟩ := by
  by_cases hin : room ∈ s.started
  · simp [hin, eq_comm]
  · simp [hin]

theorem roomsStep_input {i : Fin 2} {res : Int} {packet : Packet F} :
    roomsStep s ⟨room, .input i res packet⟩ = some t ↔ room ∈ s.started ∧
      t = { s with globals := (onInputReady s.globals (room.clients i) res packet).2 } := by
  by_cases hin : room ∈ s.started
  · simp [hin, eq_comm]
  · simp [hin]

/-- `s` is a server with any rooms and `s'` a server with only this one. -/
def Tracks (room : Room) (s s' : ServerProcess F) : Prop :=
  sentTo room s.sent = s'.sent ∧
    (room ∉ s.started ∧ s.globals.state.ownIdIndex = 0 ∧ s' = .initial ∨
      room ∈ s.started ∧ room ∈ s'.started ∧ s.globals = s'.globals ∧
        s.globals.state.playerIds = room.clients)

theorem Tracks.own_step {event : RoomEvent F} (h : Tracks room s s')
    (hC : Undisturbed room s ⟨room, event⟩) (hstep : roomsStep s ⟨room, event⟩ = some t) :
    ∃ t', roomsStep s' ⟨room, event⟩ = some t' ∧ Tracks room t t' := by
  obtain ⟨hsent, hgame⟩ := h
  cases event with
  | start rands =>
    obtain ⟨hout, rfl⟩ := roomsStep_start.mp hstep
    obtain ⟨-, hown, rfl⟩ := hgame.resolve_right fun hplays => hout hplays.1
    simp only [Undisturbed, if_true] at hC
    have hsame : startPongGame room rands s.globals = startPongGame room rands Globals.zero :=
      startPongGame_congr room hown hC.1 hC.2.1 hC.2.2 rands
    refine ⟨_, roomsStep_start.mpr ⟨List.not_mem_nil, rfl⟩, ?_,
      Or.inr ⟨List.mem_cons_self, List.mem_cons_self, ?_, rfl⟩⟩
    · rw [sentTo_append, hsent, sentTo_own mem_startPongGame, hsame]
      rfl
    · rw [hsame]
      rfl
  | tick tick =>
    obtain ⟨hin, packet, g, htick, rfl⟩ := roomsStep_tick.mp hstep
    obtain ⟨-, hin', hglobals, hids⟩ := hgame.resolve_left fun hout => hout.1 hin
    rw [hglobals] at htick
    refine ⟨_, roomsStep_tick.mpr ⟨hin', packet, g, htick, rfl⟩, ?_, Or.inr ⟨hin, hin', rfl, ?_⟩⟩
    · rw [sentTo_append, hsent, sentTo_own mem_roomBroadcast]
    · rw [(sendState_ids htick).1, ← hglobals, hids]
  | input i res packet =>
    obtain ⟨hin, rfl⟩ := roomsStep_input.mp hstep
    obtain ⟨-, hin', hglobals, hids⟩ := hgame.resolve_left fun hout => hout.1 hin
    refine ⟨_, roomsStep_input.mpr ⟨hin', rfl⟩, hsent, Or.inr ⟨hin, hin', ?_, ?_⟩⟩
    · rw [hglobals]
    · rw [onInputReady_state, hids]

theorem Tracks.other_step {event : RoomEvent F} (h : Tracks room s s') (hne : other ≠ room)
    (hclients : ∀ i j, other.clients i ≠ room.clients j)
    (hC : Undisturbed room s ⟨other, event⟩) (hstep : roomsStep s ⟨other, event⟩ = some t) :
    Tracks room t s' := by
  obtain ⟨hsent, hgame⟩ := h
  cases event with
  | start rands =>
    obtain ⟨-, rfl⟩ := roomsStep_start.mp hstep
    simp only [Undisturbed, if_neg hne] at hC
    obtain ⟨hout, hown, hinit⟩ := hgame.resolve_right fun hplays => hC hplays.1
    refine ⟨?_, Or.inl ⟨?_, hown, hinit⟩⟩
    · rw [sentTo_append, sentTo_other hclients mem_startPongGame, List.append_nil, hsent]
    · intro hin
      rcases List.mem_cons.mp hin with heq | hin
      · exact hne heq.symm
      · exact hout hin
  | tick tick =>
    obtain ⟨-, packet, g, htick, rfl⟩ := roomsStep_tick.mp hstep
    have hidle : room ∉ s.started := hC.resolve_left hne
    obtain ⟨hout, hown, hinit⟩ := hgame.resolve_right fun hplays => hidle hplays.1
    refine ⟨?_, Or.inl ⟨hout, ?_, hinit⟩⟩
    · rw [sentTo_append, sentTo_other hclients mem_roomBroadcast, List.append_nil, hsent]
    · rw [(sendState_ids htick).2, hown]
  | input i res packet =>
    obtain ⟨-, rfl⟩ := roomsStep_input.mp hstep
    rcases hgame with ⟨hout, hown, hinit⟩ | ⟨hin, hin', hglobals, hids⟩
    · refine ⟨hsent, Or.inl ⟨hout, ?_, hinit⟩⟩
      rw [onInputReady_state, hown]
    · have hsame : (onInputReady s.globals (other.clients i) res packet).2 = s.globals := by
        apply onInputReady_stranger
        · rw [hids]
          exact (hclients i 0).symm
        · rw [hids]
          exact (hclients i 1).symm
      refine ⟨hsent, Or.inr ⟨hin, hin', ?_, ?_⟩⟩
      · rw [hsame, hglobals]
      · rw [hsame, hids]

theorem sentTo_others {ls : List (RoomLabel F)}
    (hclients : ∀ l ∈ ls, ∀ i j, l.room.clients i ≠ room.clients j)
    (h : System.run roomsStep s ls = some t) : sentTo room t.sent = sentTo room s.sent := by
  induction ls generalizing s with
  | nil =>
    cases h
    rfl
  | cons l ls ih =>
    obtain ⟨m, hm, ht⟩ := System.run_cons_eq_some.mp h
    rw [ih (fun l' hl' => hclients l' (List.mem_cons_of_mem _ hl')) ht]
    have hother := hclients l List.mem_cons_self
    obtain ⟨other, event⟩ := l
    cases event with
    | start rands =>
      obtain ⟨-, rfl⟩ := roomsStep_start.mp hm
      rw [sentTo_append, sentTo_other hother mem_startPongGame, List.append_nil]
    | tick tick =>
      obtain ⟨-, packet, g, -, rfl⟩ := roomsStep_tick.mp hm
      rw [sentTo_append, sentTo_other hother mem_roomBroadcast, List.append_nil]
    | input i res packet =>
      obtain ⟨-, rfl⟩ := roomsStep_input.mp hm
      rfl

theorem DistinctClients.ne {rooms : Set Room} (h : DistinctClients rooms) (hother : other ∈ rooms)
    (hroom : room ∈ rooms) (hne : other ≠ room) : ∀ i j, other.clients i ≠ room.clients j := by
  intro i j heq
  exact hne (h other hother room hroom i j heq).1

/-- A room whose variables nobody else uses plays as it plays alone: `ls` is the run up to
any step of the room, `rest` are steps of other rooms after the room's last. -/
theorem room_isolation {rooms : Set Room} (hdistinct : DistinctClients rooms)
    (hroom : room ∈ rooms) {ls rest : List (RoomLabel F)}
    (hrooms : ∀ l ∈ ls ++ rest, l.room ∈ rooms) (hrest : ∀ l ∈ rest, l.room ≠ room)
    (hC : System.AllSteps roomsStep (Undisturbed room) .initial ls)
    (hs : System.run roomsStep .initial ls = some s) (ht : System.run roomsStep s rest = some t) :
    ∃ s', System.run roomsStep .initial ((ls ++ rest).filter (RoomLabel.isOf room)) = some s' ∧
      sentTo room t.sent = sentTo room s'.sent ∧
      (room ∈ s.started → s.globals = s'.globals) := by
  have hothers : ∀ l ∈ rest, ∀ i j, l.room.clients i ≠ room.clients j := fun l hl =>
    hdistinct.ne (hrooms l (List.mem_append_right _ hl)) hroom (hrest l hl)
  have hinit : Tracks room (.initial : ServerProcess F) .initial :=
    ⟨rfl, Or.inl ⟨List.not_mem_nil, rfl, rfl⟩⟩
  have hCmem := hC.and_mem (P := fun l => l.room ∈ rooms) fun l hl =>
    hrooms l (List.mem_append_left _ hl)
  have hown : ∀ (s s' : ServerProcess F) l t, Tracks room s s' →
      (Undisturbed room s l ∧ l.room ∈ rooms) →
      roomsStep s l = some t → RoomLabel.isOf room l = true →
      ∃ t', roomsStep s' l = some t' ∧ Tracks room t t' := by
    intro s s' l t htracks hC hstep hof
    obtain ⟨other, event⟩ := l
    have heq : other = room := of_decide_eq_true hof
    subst heq
    exact htracks.own_step hC.1 hstep
  have hother : ∀ (s s' : ServerProcess F) l t, Tracks room s s' →
      (Undisturbed room s l ∧ l.room ∈ rooms) →
      roomsStep s l = some t → RoomLabel.isOf room l = false → Tracks room t s' := by
    intro s s' l t htracks hC hstep hof
    have hne : l.room ≠ room := of_decide_eq_false hof
    exact htracks.other_step hne (hdistinct.ne hC.2 hroom hne) hC.1 hstep
  obtain ⟨s', hs', hsent, hgame⟩ := System.run_filter hown hother hinit hCmem hs
  have hnone : rest.filter (RoomLabel.isOf room) = [] := by
    apply List.filter_eq_nil_iff.mpr
    intro l hl hof
    exact hrest l hl (of_decide_eq_true hof)
  refine ⟨s', ?_, ?_, ?_⟩
  · rw [List.filter_append, hnone, List.append_nil]
    exact hs'
  · rw [sentTo_others hothers ht, ← hsent]
    simp only [sentTo, List.filter_filter, Bool.and_self]
  · intro hin
    exact (hgame.resolve_left fun hout => hout.1 hin).2.2.1

end

def room1 : Room := ⟨![1, 2]⟩
def room2 : Room := ⟨![3, 4]⟩

/-- One match and then another: client 1 presses a key for 100 ms and its room ticks. -/
def firstMatch : List (RoomLabel ℚ) :=
  [⟨room1, .start ⟨0, 0, 0⟩⟩, ⟨room1, .input 0 10 ⟨1, 0, 4, Packet.zero.data.setInputAccMs 100⟩⟩,
    ⟨room1, .tick ⟨16, 1, 0, ⟨0, 0, 0⟩⟩⟩]

def secondMatch : List (RoomLabel ℚ) := [⟨room2, .start ⟨0, 0, 0⟩⟩]

theorem room_isolation_firstMatch :
    ∃ s t s', System.run roomsStep .initial firstMatch = some s ∧
      System.run roomsStep s secondMatch = some t ∧
      System.run roomsStep .initial
        ((firstMatch ++ secondMatch).filter (RoomLabel.isOf room1)) = some s' ∧
      sentTo room1 t.sent = sentTo room1 s'.sent ∧
      (room1 ∈ s.started → s.globals = s'.globals) := by
  have hdistinct : DistinctClients {room1, room2} := by
    rintro r (rfl | rfl) r' (rfl | rfl) <;> decide
  have hrooms : ∀ l ∈ firstMatch ++ secondMatch, l.room ∈ ({room1, room2} : Set Room) := by
    intro l hl
    simp only [firstMatch, secondMatch, List.cons_append, List.nil_append, List.mem_cons,
      List.not_mem_nil, or_false] at hl
    rcases hl with rfl | rfl | rfl | rfl
    · exact Or.inl rfl
    · exact Or.inl rfl
    · exact Or.inl rfl
    · exact Or.inr rfl
  have hrest : ∀ l ∈ secondMatch, l.room ≠ room1 := by
    intro l hl
    rw [List.mem_singleton.mp hl]
    decide
  have hC : System.AllSteps roomsStep (Undisturbed room1) .initial firstMatch :=
    ⟨⟨rfl, rfl, rfl⟩, fun _ _ => ⟨trivial, fun _ _ => ⟨Or.inl rfl, fun _ _ => trivial⟩⟩⟩
  have hdefined : (System.run roomsStep .initial (firstMatch ++ secondMatch)).isSome := by
    decide +kernel
  obtain ⟨t, hrun⟩ := Option.isSome_iff_exists.mp hdefined
  rw [System.run_append] at hrun
  obtain ⟨s, hs, ht⟩ := Option.bind_eq_some_iff.mp hrun
  obtain ⟨s', hs', hsame⟩ := room_isolation hdistinct (Or.inl rfl) hrooms hrest hC hs ht
  exact ⟨s, t, s', hs, ht, hs', hsame⟩

/-- The same match with the other one started in between. -/
def twoMatches : List (RoomLabel ℚ) := firstMatch.take 1 ++ secondMatch ++ firstMatch.drop 1

theorem room_isolation_twoMatches :
    (System.run roomsStep .initial twoMatches).isSome ∧
      (System.run roomsStep .initial (twoMatches.filter (RoomLabel.isOf room1))).isSome ∧
      ((System.run roomsStep .initial twoMatches).map fun s => sentTo room1 s.sent) ≠
        ((System.run roomsStep .initial (twoMatches.filter (RoomLabel.isOf room1))).map fun s =>
          sentTo room1 s.sent) := by
  decide +kernel

end CPong
