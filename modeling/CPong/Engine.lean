import CPong.Lib.Trunc
import Mathlib.Data.BitVec
import Mathlib.Tactic.Ring
import Mathlib.Tactic.NormNum

/-!
# Vectors, boxes and collision times

`vector.c` and `engine.c`. A C `float` is an exact number of `F`; a conversion of a
float to an `int` truncates.
-/

namespace CPong

set_option autoImplicit false

abbrev I8 := BitVec 8

abbrev I32 := BitVec 32

-- Shortcut instances for the literals that several modules write.

instance (priority := 2000) neZero_two : NeZero 2 := ⟨two_ne_zero⟩

instance (priority := 2000) atLeastTwo_2 : Nat.AtLeastTwo 2 := ⟨by omega⟩

instance (priority := 2000) atLeastTwo_5 : Nat.AtLeastTwo 5 := ⟨by omega⟩

instance (priority := 2000) atLeastTwo_10 : Nat.AtLeastTwo 10 := ⟨by omega⟩

instance (priority := 2000) atLeastTwo_20 : Nat.AtLeastTwo 20 := ⟨by omega⟩

instance (priority := 2000) atLeastTwo_50 : Nat.AtLeastTwo 50 := ⟨by omega⟩

instance (priority := 2000) atLeastTwo_160 : Nat.AtLeastTwo 160 := ⟨by omega⟩

instance (priority := 2000) atLeastTwo_240 : Nat.AtLeastTwo 240 := ⟨by omega⟩

instance (priority := 2000) atLeastTwo_475 : Nat.AtLeastTwo 475 := ⟨by omega⟩

instance (priority := 2000) atLeastTwo_10000 : Nat.AtLeastTwo 10000 := ⟨by omega⟩

/-- The functions of `math.h` that the program calls. -/
class Libm (F : Type) where
  sqrtf : F → F
  cos : F → F
  sin : F → F

@[ext]
structure Vector (F : Type) where
  x : F
  y : F
deriving DecidableEq, Repr

@[ext]
structure GameObj (F : Type) where
  speed : F
  pos : Vector F
  velocity : Vector F
  size : Vector F
deriving DecidableEq, Repr

@[ext]
structure CollInfo (F : Type) where
  toi : F
  normal : Vector F
  pos : Vector F
deriving DecidableEq, Repr

structure AabbBoundaries (F : Type) where
  up : F
  down : F
  left : F
  right : F
deriving DecidableEq, Repr

section
variable {F : Type} [Field F]

def Vector.zero : Vector F := ⟨0, 0⟩

def GameObj.zero : GameObj F := ⟨0, .zero, .zero, .zero⟩

def CollInfo.zero : CollInfo F := ⟨0, .zero, .zero⟩

def vectorAdd (first second : Vector F) : Vector F :=
  ⟨first.x + second.x, first.y + second.y⟩

def vectorMultiply (vec : Vector F) (scalar : F) : Vector F :=
  ⟨vec.x * scalar, vec.y * scalar⟩

def linearMove (obj : GameObj F) (deltaTime : Int) : GameObj F :=
  let correctedVel := vectorMultiply obj.velocity (deltaTime : F)
  { obj with pos := vectorAdd obj.pos correctedVel }

def aabbGetBoundaries (obj : GameObj F) : AabbBoundaries F where
  up := obj.pos.y + obj.size.y / 2
  down := obj.pos.y - obj.size.y / 2
  left := obj.pos.x - obj.size.x / 2
  right := obj.pos.x + obj.size.x / 2

def linearInterpolate (pos posNext : Vector F) (deltaTimeNormalized : F) : Vector F where
  x := deltaTimeNormalized * (posNext.x - pos.x) + pos.x
  y := deltaTimeNormalized * (posNext.y - pos.y) + pos.y

variable (obj : GameObj F) (t : Int)

@[simp] theorem linearMove_pos_x : (linearMove obj t).pos.x = obj.pos.x + obj.velocity.x * t := rfl
@[simp] theorem linearMove_pos_y : (linearMove obj t).pos.y = obj.pos.y + obj.velocity.y * t := rfl
@[simp] theorem linearMove_velocity : (linearMove obj t).velocity = obj.velocity := rfl
@[simp] theorem linearMove_size : (linearMove obj t).size = obj.size := rfl
@[simp] theorem linearMove_speed : (linearMove obj t).speed = obj.speed := rfl

theorem linearInterpolate_linearMove (τ : F) :
    linearInterpolate obj.pos (linearMove obj t).pos τ =
      ⟨obj.pos.x + obj.velocity.x * (τ * t), obj.pos.y + obj.velocity.y * (τ * t)⟩ := by
  simp only [linearInterpolate, linearMove_pos_x, linearMove_pos_y]
  congr 1 <;> ring

end

section
variable {F : Type} [Field F] [LinearOrder F]

def reflectOrthogonal (vec normalOrthogonal : Vector F) : Vector F :=
  if normalOrthogonal.x = 0 then { vec with y := -vec.y } else { vec with x := -vec.x }

def isValidToi (toi : F) : Bool := 0 < toi ∧ toi ≤ 1

/-- The comparisons of `AABB_is_overlapping`, with what each of them returns. -/
def aabbIsOverlapping (first second : GameObj F) : Bool :=
  let bounds1 := aabbGetBoundaries first
  let bounds2 := aabbGetBoundaries second
  if bounds1.down > bounds2.up then true
  else if bounds1.up < bounds2.down then true
  else if bounds1.left > bounds2.right then true
  else if bounds1.right < bounds2.left then true
  else false

def keepEarlier (result collision : CollInfo F) : CollInfo F :=
  if isValidToi collision.toi ∧ collision.toi < result.toi then collision else result

def getFirstCollision (collisions : List (CollInfo F)) (result : CollInfo F) :
    Bool × CollInfo F :=
  let first := collisions.foldl keepEarlier { result with toi := 99 }
  (first.toi ≠ 99, first)

@[simp] theorem isValidToi_iff {toi : F} : isValidToi toi = true ↔ 0 < toi ∧ toi ≤ 1 := by
  simp [isValidToi]

/-- What the scan of `get_first_collision` has found after the collisions `seen`. -/
def Earliest (start : F) (seen : List (CollInfo F)) (first : CollInfo F) : Prop :=
  (first.toi = start ∨ first ∈ seen ∧ isValidToi first.toi) ∧ first.toi ≤ start ∧
    ∀ c ∈ seen, isValidToi c.toi → first.toi ≤ c.toi

theorem Earliest.keepEarlier {start : F} {seen : List (CollInfo F)} {first : CollInfo F}
    (h : Earliest start seen first) (c : CollInfo F) :
    Earliest start (seen ++ [c]) (keepEarlier first c) := by
  obtain ⟨hmem, hle, hmin⟩ := h
  rw [CPong.keepEarlier]
  split
  · rename_i hc
    refine ⟨Or.inr ⟨by simp, hc.1⟩, hc.2.le.trans hle, ?_⟩
    intro d hd hvalid
    rcases List.mem_append.mp hd with hd | hd
    · exact hc.2.le.trans (hmin d hd hvalid)
    · rw [List.mem_singleton.mp hd]
  · rename_i hc
    refine ⟨hmem.imp_right fun hm => ⟨List.mem_append_left _ hm.1, hm.2⟩, hle, ?_⟩
    intro d hd hvalid
    rcases List.mem_append.mp hd with hd | hd
    · exact hmin d hd hvalid
    · rw [List.mem_singleton.mp hd] at hvalid ⊢
      exact not_lt.mp fun hlt => hc ⟨hvalid, hlt⟩

theorem earliest_foldl {start : F} {seen : List (CollInfo F)} {first : CollInfo F}
    (cs : List (CollInfo F)) (h : Earliest start seen first) :
    Earliest start (seen ++ cs) (cs.foldl keepEarlier first) := by
  induction cs generalizing seen first with
  | nil => simpa using h
  | cons c cs ih => simpa using ih (h.keepEarlier c)

theorem getFirstCollision_hit {cs : List (CollInfo F)} {r : CollInfo F}
    (h : (getFirstCollision cs r).1 = true) :
    (getFirstCollision cs r).2 ∈ cs ∧ isValidToi (getFirstCollision cs r).2.toi ∧
      ∀ c ∈ cs, isValidToi c.toi → (getFirstCollision cs r).2.toi ≤ c.toi := by
  have hbase : Earliest (99 : F) [] { r with toi := 99 } :=
    ⟨Or.inl rfl, le_refl _, fun c hc => absurd hc List.not_mem_nil⟩
  obtain ⟨hmem, -, hmin⟩ := earliest_foldl cs hbase
  simp only [getFirstCollision, decide_eq_true_eq] at h ⊢
  simp only [List.nil_append] at hmem hmin
  have hfound := hmem.resolve_left h
  exact ⟨hfound.1, hfound.2, hmin⟩

variable [IsStrictOrderedRing F]

theorem getFirstCollision_miss {cs : List (CollInfo F)} {r : CollInfo F}
    (h : (getFirstCollision cs r).1 = false) :
    (getFirstCollision cs r).2.toi = 99 ∧ ∀ c ∈ cs, ¬ isValidToi c.toi := by
  have hbase : Earliest (99 : F) [] { r with toi := 99 } :=
    ⟨Or.inl rfl, le_refl _, fun c hc => absurd hc List.not_mem_nil⟩
  obtain ⟨-, -, hmin⟩ := earliest_foldl cs hbase
  simp only [getFirstCollision, decide_eq_false_iff_not, not_not] at h ⊢
  refine ⟨h, fun c hc hvalid => ?_⟩
  have hle := hmin c (by simpa using hc) hvalid
  rw [h] at hle
  have hone := (isValidToi_iff.mp hvalid).2
  exact absurd (hle.trans hone) (by norm_num)

theorem getFirstCollision_fst_of_valid {cs : List (CollInfo F)} {r : CollInfo F}
    (h : isValidToi (getFirstCollision cs r).2.toi = true) : (getFirstCollision cs r).1 = true := by
  cases hfst : (getFirstCollision cs r).1 with
  | true => rfl
  | false =>
    have hle := (isValidToi_iff.mp h).2
    rw [(getFirstCollision_miss hfst).1] at hle
    exact absurd hle (by norm_num)

theorem getFirstCollision_le {cs : List (CollInfo F)} {r c : CollInfo F} (hc : c ∈ cs)
    (h : isValidToi c.toi = true) :
    (getFirstCollision cs r).1 = true ∧ (getFirstCollision cs r).2.toi ≤ c.toi := by
  cases hfst : (getFirstCollision cs r).1 with
  | true => exact ⟨rfl, (getFirstCollision_hit hfst).2.2 c hc h⟩
  | false => exact absurd h ((getFirstCollision_miss hfst).2 c hc)

/-- The first of the collisions is kept when it is no later than the others. -/
theorem getFirstCollision_head {c : CollInfo F} {cs : List (CollInfo F)} {r : CollInfo F}
    (hc : isValidToi c.toi = true) (hmin : ∀ d ∈ cs, isValidToi d.toi = true → c.toi ≤ d.toi) :
    getFirstCollision (c :: cs) r = (true, c) := by
  have h99 : c.toi < 99 := (isValidToi_iff.mp hc).2.trans_lt (by norm_num)
  have hfold : (c :: cs).foldl keepEarlier { r with toi := 99 } = c := by
    rw [List.foldl_cons, keepEarlier, if_pos ⟨hc, h99⟩]
    induction cs with
    | nil => rfl
    | cons d cs ih =>
      have hkeep : keepEarlier c d = c :=
        if_neg fun h => absurd h.2 (hmin d List.mem_cons_self h.1).not_gt
      rw [List.foldl_cons, hkeep]
      exact ih fun e he => hmin e (List.mem_cons_of_mem d he)
  unfold getFirstCollision
  rw [hfold]
  exact Prod.ext (decide_eq_true h99.ne) rfl

end

end CPong
