import CPong.Engine
import CPong.Lib.System
import CPong.Lib.WrappedClock

/-!
# The loop that keeps time

`run_every.c`. The clock is monotone and unbounded; its milliseconds reach the loop as an
`int`, and the interval as a `long` of `L` bits.
-/

namespace CPong

set_option autoImplicit false

open Lib.System
open Lib.WrappedClock

structure Timespec where
  tvSec : Int
  tvNsec : Int
deriving DecidableEq, Repr

def Timespec.ms (ts : Timespec) : Int := ts.tvSec * 1000 + ts.tvNsec.tdiv 1000000

/-- `ts` is what `clock_gettime` has put there. -/
def getCurrTimeMs (ts : Timespec) : I32 := BitVec.ofInt 32 ts.ms

def msToTimespec (timeMs : I32) : Timespec where
  tvSec := timeMs.toInt.tdiv 1000
  tvNsec := timeMs.toInt.tmod 1000 * 1000000

/-- The request that goes to `nanosleep`. -/
def sleepMs (timeMs : I32) : Option Timespec :=
  if 0 < timeMs.toInt then some (msToTimespec timeMs) else none

/-- One turn of the `while`: the clock at its first and its second reading, and what
`func` returns. -/
structure Iteration where
  start : Timespec
  stop : Timespec
  run : Bool
deriving DecidableEq, Repr

/-- The arguments of the calls of `func` and of `sleep_ms` in one iteration. -/
structure Turn where
  deltaTime : I32
  sleepTime : I32
deriving DecidableEq, Repr

structure RunEvery where
  last : I32
  run : Bool
  turns : List Turn
deriving DecidableEq, Repr

section Loop
variable {L : Nat} (intervalMs : BitVec L)

def runEveryInit (now : Timespec) : RunEvery where
  last := ((getCurrTimeMs now).signExtend L - intervalMs).setWidth 32
  run := true
  turns := []

def sleepTime (it : Iteration) : I32 :=
  (intervalMs - (getCurrTimeMs it.stop - getCurrTimeMs it.start).signExtend L).setWidth 32

def runEveryStep (s : RunEvery) (it : Iteration) : Option RunEvery :=
  if s.run then
    let start := getCurrTimeMs it.start
    let deltaTime := start - s.last
    some
      { last := start
        run := it.run
        turns := s.turns ++ [⟨deltaTime, sleepTime intervalMs it⟩] }
  else none

/-- `none` where the loop has ended before the last of the iterations. -/
def runEvery (now : Timespec) (its : List Iteration) : Option RunEvery :=
  run (runEveryStep intervalMs) (runEveryInit intervalMs now) its

end Loop

/-- The request is for the time that was asked for. -/
theorem ms_msToTimespec (timeMs : I32) : (msToTimespec timeMs).ms = timeMs.toInt := by
  have hdiv := Int.tdiv_mul_add_tmod timeMs.toInt 1000
  rw [msToTimespec, Timespec.ms, Int.mul_tdiv_cancel _ (by decide), hdiv]

theorem ms_of_sleepMs {timeMs : I32} {rt : Timespec} (h : sleepMs timeMs = some rt) :
    rt.ms = timeMs.toInt := by
  unfold sleepMs at h
  split at h
  · cases h
    exact ms_msToTimespec timeMs
  · cases h

/-- The clock never goes back, and no iteration takes 2^31 ms. -/
def Timely (now : Int) : List Iteration → Prop
  | [] => True
  | it :: its =>
    now ≤ it.start.ms ∧ it.start.ms ≤ it.stop.ms ∧ it.stop.ms < it.start.ms + 2 ^ 31 ∧
      (∀ next ∈ its.head?, next.start.ms < it.start.ms + 2 ^ 31) ∧ Timely it.stop.ms its

instance decidableTimely : (now : Int) → (its : List Iteration) → Decidable (Timely now its)
  | _, [] => isTrue trivial
  | now, it :: its =>
    have := decidableTimely it.stop.ms its
    inferInstanceAs (Decidable (now ≤ it.start.ms ∧ _))

def starts (its : List Iteration) : List Int := its.map fun it => it.start.ms

def RunEvery.deltas (s : RunEvery) : List Int := s.turns.map fun turn => turn.deltaTime.toInt

section Run
variable {L : Nat} {intervalMs : BitVec L}

theorem runEveryStep_eq_some {s t : RunEvery} {it : Iteration} :
    runEveryStep intervalMs s it = some t ↔ s.run = true ∧ t =
      { last := getCurrTimeMs it.start
        run := it.run
        turns := s.turns ++ [⟨getCurrTimeMs it.start - s.last, sleepTime intervalMs it⟩] } := by
  unfold runEveryStep
  split
  · rename_i hrun
    simp only [hrun, true_and, Option.some.injEq]
    exact eq_comm
  · rename_i hrun
    simp only [hrun, false_and, reduceCtorEq]

/-- What a step makes of the time since the last start, if it is within the range. -/
theorem runEveryStep_deltas {s t : RunEvery} {it : Iteration} {last : Int}
    (h : runEveryStep intervalMs s it = some t) (hlast : s.last = BitVec.ofInt 32 last)
    (hle : last ≤ it.start.ms) (hlt : it.start.ms < last + 2 ^ 31) :
    t.deltas = s.deltas ++ [it.start.ms - last] := by
  obtain ⟨-, rfl⟩ := runEveryStep_eq_some.mp h
  have hdelta : (getCurrTimeMs it.start - s.last).toInt = it.start.ms - last := by
    rw [hlast]
    exact toInt_ofInt_sub (by decide) hle (by omega)
  simp only [RunEvery.deltas, List.map_append, List.map_cons, List.map_nil, hdelta]

/-- The deltas of a run are the laps of the true clock from the last start on. -/
theorem run_deltas {its : List Iteration} {s t : RunEvery} {last now : Int}
    (h : run (runEveryStep intervalMs) s its = some t) (hlast : s.last = BitVec.ofInt 32 last)
    (htimely : Timely now its) (hle : last ≤ now)
    (hlt : ∀ first ∈ its.head?, first.start.ms < last + 2 ^ 31) :
    t.deltas = s.deltas ++ laps last (starts its) := by
  induction its generalizing s last now with
  | nil =>
    cases h
    exact (List.append_nil _).symm
  | cons it its ih =>
    obtain ⟨m, hm, hrest⟩ := run_cons_eq_some.mp h
    obtain ⟨hnow, hstop, -, hnext, htail⟩ := htimely
    have hdeltas := runEveryStep_deltas hm hlast (by omega) (hlt it rfl)
    have hm' : m.last = BitVec.ofInt 32 it.start.ms := by
      obtain ⟨-, rfl⟩ := runEveryStep_eq_some.mp hm
      rfl
    rw [ih hrest hm' htail hstop hnext, hdeltas, List.append_assoc]
    rfl

/-- Each iteration adds one turn, and sleeps by its own two readings. -/
theorem run_sleepTimes {its : List Iteration} {s t : RunEvery}
    (h : run (runEveryStep intervalMs) s its = some t) :
    t.turns.map Turn.sleepTime = s.turns.map Turn.sleepTime ++ its.map (sleepTime intervalMs) := by
  induction its generalizing s with
  | nil =>
    cases h
    exact (List.append_nil _).symm
  | cons it its ih =>
    obtain ⟨m, hm, hrest⟩ := run_cons_eq_some.mp h
    obtain ⟨-, rfl⟩ := runEveryStep_eq_some.mp hm
    rw [ih hrest, List.map_append, List.append_assoc]
    rfl

theorem laps_nonneg {its : List Iteration} {last now : Int} (htimely : Timely now its)
    (hle : last ≤ now) : ∀ d ∈ laps last (starts its), 0 ≤ d := by
  induction its generalizing last now with
  | nil =>
    intro d hd
    cases hd
  | cons it its ih =>
    obtain ⟨hnow, hstop, -, -, htail⟩ := htimely
    intro d hd
    rcases List.mem_cons.mp hd with rfl | hd
    · exact Int.sub_nonneg_of_le (hle.trans hnow)
    · exact ih htail hstop d hd

theorem runEveryInit_last (hL : 32 ≤ L) (now : Timespec) :
    (runEveryInit intervalMs now).last = BitVec.ofInt 32 (now.ms - intervalMs.toInt) := by
  have hsub := setWidth_ofInt_sub hL (getCurrTimeMs now).toInt intervalMs
  refine hsub.trans ?_
  rw [← ofInt_sub, BitVec.ofInt_toInt, getCurrTimeMs, ofInt_sub]

theorem toInt_sleepTime (hL : 32 ≤ L) {it : Iteration} (hle : it.start.ms ≤ it.stop.ms)
    (hlt : it.stop.ms < it.start.ms + 2 ^ 31) :
    (sleepTime intervalMs it).toInt =
      (intervalMs.toInt - (it.stop.ms - it.start.ms)).bmod (2 ^ 32) := by
  have helapsed : (getCurrTimeMs it.stop - getCurrTimeMs it.start).toInt =
      it.stop.ms - it.start.ms := toInt_ofInt_sub (by decide) hle (by omega)
  have hsub := setWidth_ofInt_sub hL intervalMs.toInt
    ((getCurrTimeMs it.stop - getCurrTimeMs it.start).signExtend L)
  rw [BitVec.ofInt_toInt, BitVec.toInt_signExtend_of_le hL, helapsed] at hsub
  rw [sleepTime, hsub, BitVec.toInt_ofInt]

/-- The sleep is no longer than the interval, unless the time left for it is below every `int`. -/
theorem sleepTime_le_iff (hL : 32 ≤ L) {it : Iteration} (hle : it.start.ms ≤ it.stop.ms)
    (hlt : it.stop.ms < it.start.ms + 2 ^ 31) :
    (sleepTime intervalMs it).toInt ≤ intervalMs.toInt ↔
      -2 ^ 31 ≤ intervalMs.toInt - (it.stop.ms - it.start.ms) := by
  rw [toInt_sleepTime hL hle hlt, Int.bmod_def]
  split <;> omega

theorem Timely.mem {its : List Iteration} {now : Int} (h : Timely now its) :
    ∀ it ∈ its, it.start.ms ≤ it.stop.ms ∧ it.stop.ms < it.start.ms + 2 ^ 31 := by
  induction its generalizing now with
  | nil =>
    intro it hit
    cases hit
  | cons first its ih =>
    obtain ⟨-, hstop, hlong, -, htail⟩ := h
    intro it hit
    rcases List.mem_cons.mp hit with rfl | hit
    · exact ⟨hstop, hlong⟩
    · exact ih htail it hit

/-- The deltas of a run from its first iteration on, whatever the first one is. -/
theorem run_deltas_cons {first : Iteration} {others : List Iteration} {s t : RunEvery}
    {now : Int} (h : run (runEveryStep intervalMs) s (first :: others) = some t)
    (htimely : Timely now (first :: others)) :
    t.deltas = s.deltas ++
      (getCurrTimeMs first.start - s.last).toInt :: laps first.start.ms (starts others) := by
  obtain ⟨m, hm, hrest⟩ := run_cons_eq_some.mp h
  obtain ⟨-, hstop, -, hnext, htail⟩ := htimely
  obtain ⟨-, rfl⟩ := runEveryStep_eq_some.mp hm
  rw [run_deltas hrest rfl htail hstop hnext]
  simp only [RunEvery.deltas, List.map_append, List.map_cons, List.map_nil, List.append_assoc,
    List.cons_append, List.nil_append]

/-- The first delta is what an `int` makes of the interval and the time from the entry. -/
theorem runEvery_firstLaps (hL : 32 ≤ L) {entry : Timespec} {first : Iteration}
    {others : List Iteration} {t : RunEvery} (htimely : Timely entry.ms (first :: others))
    (h : runEvery intervalMs entry (first :: others) = some t) :
    t.deltas = (BitVec.ofInt 32 (intervalMs.toInt + (first.start.ms - entry.ms))).toInt ::
      laps first.start.ms (starts others) := by
  have hfirst : getCurrTimeMs first.start - (runEveryInit intervalMs entry).last =
      BitVec.ofInt 32 (intervalMs.toInt + (first.start.ms - entry.ms)) := by
    rw [runEveryInit_last hL, getCurrTimeMs, ofInt_sub]
    congr 1
    omega
  have hnil : (runEveryInit intervalMs entry).deltas = [] := rfl
  rw [run_deltas_cons h htimely, hfirst, hnil, List.nil_append]

theorem sleepTime_of_run {its : List Iteration} {s t : RunEvery} (hs : s.turns = [])
    (h : run (runEveryStep intervalMs) s its = some t) {n : Nat} {it : Iteration} {turn : Turn}
    (hit : its[n]? = some it) (hturn : t.turns[n]? = some turn) :
    turn.sleepTime = sleepTime intervalMs it := by
  have hsleep := congrArg (fun times => times[n]?) (run_sleepTimes h)
  simpa only [hs, List.map_nil, List.nil_append, List.getElem?_map, hit, hturn, Option.map_some,
    Option.some.injEq] using hsleep

/-- However often the loop turns and the clock wraps, the deltas are the times between the
starts, and neither lose nor repeat any. Only the first, which reaches back by the interval
from the entry, can be out of range. -/
theorem runEvery_deltas (hL : 32 ≤ L) {entry : Timespec} {first : Iteration}
    {others : List Iteration} {t : RunEvery} (htimely : Timely entry.ms (first :: others))
    (h : runEvery intervalMs entry (first :: others) = some t) :
    t.deltas.length = others.length + 1 ∧
      t.deltas.tail = laps first.start.ms (starts others) ∧
      (∀ d ∈ t.deltas.tail, 0 ≤ d) ∧
      (0 ≤ intervalMs.toInt + (first.start.ms - entry.ms) ∧
          intervalMs.toInt + (first.start.ms - entry.ms) < 2 ^ 31 ↔
        t.deltas.head? = some (intervalMs.toInt + (first.start.ms - entry.ms)) ∧
          (∀ d ∈ t.deltas, 0 ≤ d) ∧
          t.deltas.sum =
            intervalMs.toInt + ((starts others).getLastD first.start.ms - entry.ms)) ∧
      (∀ (n : Nat) (it : Iteration) (turn : Turn), (first :: others)[n]? = some it →
        t.turns[n]? = some turn →
        (turn.sleepTime.toInt ≤ intervalMs.toInt ↔
          -2 ^ 31 ≤ intervalMs.toInt - (it.stop.ms - it.start.ms))) ∧
      (0 ≤ intervalMs.toInt → ∀ turn ∈ t.turns, turn.sleepTime.toInt ≤ intervalMs.toInt ∧
        ∀ rt, sleepMs turn.sleepTime = some rt → rt.ms ≤ intervalMs.toInt) := by
  have hstart : Timely first.start.ms (first :: others) := ⟨le_rfl, htimely.2⟩
  have hlaps : ∀ d ∈ laps first.start.ms (starts others), 0 ≤ d := by
    have hall := laps_nonneg hstart le_rfl
    exact fun d hd => hall d (List.mem_cons_of_mem _ hd)
  have hsum := sum_laps first.start.ms (starts others)
  rw [runEvery_firstLaps hL htimely h]
  refine ⟨?_, rfl, hlaps, ?_, ?_, ?_⟩
  · rw [List.length_cons, length_laps, starts, List.length_map]
  · rw [← toInt_ofInt_exact_iff (w := 32) (by decide)]
    constructor
    · intro hexact
      obtain ⟨hword, hpos⟩ := hexact
      rw [hword] at hpos ⊢
      refine ⟨rfl, List.forall_mem_cons.mpr ⟨hpos, hlaps⟩, ?_⟩
      rw [List.sum_cons, hsum]
      omega
    · intro hexact
      obtain ⟨hhead, hnonneg, -⟩ := hexact
      exact ⟨Option.some.inj hhead, hnonneg _ List.mem_cons_self⟩
  · intro n it turn hit hn
    obtain ⟨hle, hlt⟩ := htimely.mem it (List.mem_of_getElem? hit)
    rw [sleepTime_of_run rfl h hit hn]
    exact sleepTime_le_iff hL hle hlt
  · intro hinterval turn hmem
    have hsleeps := List.mem_map_of_mem (f := Turn.sleepTime) hmem
    rw [run_sleepTimes h] at hsleeps
    obtain ⟨it, hit, hsleep⟩ := List.mem_map.mp hsleeps
    obtain ⟨hle, hlt⟩ := htimely.mem it hit
    have hbound : turn.sleepTime.toInt ≤ intervalMs.toInt := by
      rw [← hsleep]
      exact (sleepTime_le_iff hL hle hlt).mpr (by omega)
    refine ⟨hbound, ?_⟩
    intro rt hrt
    rwa [ms_of_sleepMs hrt]

end Run

/-- A thread that the system holds up between its entry and its first turn, one that starts
with the greatest `int` for its interval, and one with an interval below zero. -/
theorem runEvery_first_wraps :
    (Timely 0 [⟨⟨2147483, 632000000⟩, ⟨2147483, 632000000⟩, true⟩] ∧
      (runEvery (16 : BitVec 64) ⟨0, 0⟩
        [⟨⟨2147483, 632000000⟩, ⟨2147483, 632000000⟩, true⟩]).map RunEvery.deltas =
          some [-2147483648]) ∧
    (Timely 0 [⟨⟨0, 1000000⟩, ⟨0, 1000000⟩, true⟩] ∧
      (runEvery (2147483647 : BitVec 64) ⟨0, 0⟩
        [⟨⟨0, 1000000⟩, ⟨0, 1000000⟩, true⟩]).map RunEvery.deltas = some [-2147483648]) ∧
    Timely 0 [⟨⟨0, 0⟩, ⟨2147483, 647000000⟩, true⟩] ∧
      (runEvery (-5 : BitVec 64) ⟨0, 0⟩ [⟨⟨0, 0⟩, ⟨2147483, 647000000⟩, true⟩]).map
        (fun t => t.turns.map fun turn => turn.sleepTime.toInt) = some [2147483644] := by
  decide

/-- Two turns at 60 a second, the second one behind the wrap of the clock. -/
def wrapTurns : List Iteration :=
  [⟨⟨2147483, 640000000⟩, ⟨2147483, 642000000⟩, true⟩,
    ⟨⟨2147483, 656000000⟩, ⟨2147483, 659000000⟩, true⟩]

theorem runEvery_deltas_wrapTurns :
    ∃ t, runEvery (16 : BitVec 64) ⟨2147483, 639000000⟩ wrapTurns = some t ∧
      t.deltas.tail = [16] ∧ t.deltas.sum = 33 ∧ ∀ turn ∈ t.turns, turn.sleepTime.toInt ≤ 16 := by
  have htimely : Timely (Timespec.ms ⟨2147483, 639000000⟩) wrapTurns := by decide
  obtain ⟨t, h⟩ : ∃ t, runEvery (16 : BitVec 64) ⟨2147483, 639000000⟩ wrapTurns = some t :=
    ⟨_, rfl⟩
  obtain ⟨-, htail, -, hfirst, -, hsleep⟩ := runEvery_deltas (by decide) htimely h
  obtain ⟨-, -, hsum⟩ := hfirst.mp (by decide)
  exact ⟨t, h, htail, hsum, fun turn hturn => (hsleep (by decide) turn hturn).1⟩

end CPong
