import CPong.BallTrip

/-!
# The box test

`AABB_collide` in its parts: the first vertical and the first horizontal face that the leading
side of the first box comes to, and whether the boxes meet along the other axis then.
-/

namespace CPong

set_option autoImplicit false

open Lib (trunc)

section Boxes
variable {F : Type} [Field F]

/-- The object after the part `τ` of the tick. -/
def partWay (obj : GameObj F) (deltaTime : Int) (τ : F) : GameObj F :=
  { obj with pos := linearInterpolate obj.pos (linearMove obj deltaTime).pos τ }

variable (obj : GameObj F) (deltaTime : Int) (τ : F)

@[simp] theorem partWay_pos :
    (partWay obj deltaTime τ).pos = ⟨obj.pos.x + obj.velocity.x * (τ * deltaTime),
      obj.pos.y + obj.velocity.y * (τ * deltaTime)⟩ :=
  linearInterpolate_linearMove obj deltaTime τ

@[simp] theorem partWay_zero : partWay obj deltaTime 0 = obj := by
  unfold partWay
  rw [linearInterpolate_linearMove]
  simp

@[simp] theorem partWay_size : (partWay obj deltaTime τ).size = obj.size := rfl

variable {obj deltaTime} in
theorem partWay_of_still (h : obj.velocity = ⟨0, 0⟩) : partWay obj deltaTime τ = obj := by
  have hpos : (partWay obj deltaTime τ).pos = obj.pos := by
    rw [partWay_pos, h]
    simp only [zero_mul, add_zero]
  exact GameObj.ext rfl hpos rfl rfl

variable [LinearOrder F]

/-- The closed boxes have an `x` in common. -/
def MeetsX (a b : GameObj F) : Prop :=
  ¬ ((aabbGetBoundaries a).right < (aabbGetBoundaries b).left ∨
    (aabbGetBoundaries a).left > (aabbGetBoundaries b).right)

def MeetsY (a b : GameObj F) : Prop :=
  ¬ ((aabbGetBoundaries a).up < (aabbGetBoundaries b).down ∨
    (aabbGetBoundaries a).down > (aabbGetBoundaries b).up)

def Touch (a b : GameObj F) : Prop := MeetsX a b ∧ MeetsY a b

instance (a b : GameObj F) : Decidable (MeetsX a b) := inferInstanceAs (Decidable (¬ _))
instance (a b : GameObj F) : Decidable (MeetsY a b) := inferInstanceAs (Decidable (¬ _))
instance (a b : GameObj F) : Decidable (Touch a b) := inferInstanceAs (Decidable (_ ∧ _))

theorem meetsX_iff {a b : GameObj F} : MeetsX a b ↔
    b.pos.x - b.size.x / 2 ≤ a.pos.x + a.size.x / 2 ∧
      a.pos.x - a.size.x / 2 ≤ b.pos.x + b.size.x / 2 := by
  unfold MeetsX aabbGetBoundaries
  rw [not_or, not_lt, gt_iff_lt, not_lt]

theorem meetsY_iff {a b : GameObj F} : MeetsY a b ↔
    b.pos.y - b.size.y / 2 ≤ a.pos.y + a.size.y / 2 ∧
      a.pos.y - a.size.y / 2 ≤ b.pos.y + b.size.y / 2 := by
  unfold MeetsY aabbGetBoundaries
  rw [not_or, not_lt, gt_iff_lt, not_lt]

variable {deltaTime} {a b : GameObj F}

theorem meetsX_of_still (hv : b.velocity.x = 0) (t t' : F) :
    MeetsX a (partWay b deltaTime t) ↔ MeetsX a (partWay b deltaTime t') := by
  simp only [meetsX_iff, partWay_pos, partWay_size, hv, zero_mul]

theorem meetsY_of_still (hv : b.velocity.y = 0) (t t' : F) :
    MeetsY a (partWay b deltaTime t) ↔ MeetsY a (partWay b deltaTime t') := by
  simp only [meetsY_iff, partWay_pos, partWay_size, hv, zero_mul]

end Boxes

section Test
variable {F : Type} [Field F] [LinearOrder F] [FloorRing F]

/-- The first of the two vertical faces, at their place when the tick begins. -/
def xFaceHit (obj1 obj2 : GameObj F) (deltaTime : Int) : Bool × CollInfo F :=
  getFirstCollision
    [(ballXCollide obj1 (trunc (aabbGetBoundaries obj2).left) deltaTime .zero).2,
     (ballXCollide obj1 (trunc (aabbGetBoundaries obj2).right) deltaTime .zero).2] .zero

def yFaceHit (obj1 obj2 : GameObj F) (deltaTime : Int) : Bool × CollInfo F :=
  getFirstCollision
    [(ballYCollide obj1 (trunc (aabbGetBoundaries obj2).up) deltaTime .zero).2,
     (ballYCollide obj1 (trunc (aabbGetBoundaries obj2).down) deltaTime .zero).2] .zero

variable (obj1 obj2 : GameObj F) (deltaTime : Int) (c : CollInfo F)

/-- `x_hit` after its check, which takes the second box at the part of the tick that
`*coll_info` holds on entry. -/
def XHit (τ : F) : Prop :=
  (xFaceHit obj1 obj2 deltaTime).1 = true ∧
    MeetsY { obj1 with pos := (xFaceHit obj1 obj2 deltaTime).2.pos } (partWay obj2 deltaTime τ)

def YHit (τ : F) : Prop :=
  (yFaceHit obj1 obj2 deltaTime).1 = true ∧
    MeetsX { obj1 with pos := (yFaceHit obj1 obj2 deltaTime).2.pos } (partWay obj2 deltaTime τ)

instance (τ : F) : Decidable (XHit obj1 obj2 deltaTime τ) := inferInstanceAs (Decidable (_ ∧ _))
instance (τ : F) : Decidable (YHit obj1 obj2 deltaTime τ) := inferInstanceAs (Decidable (_ ∧ _))

theorem aabbCollide_eq : aabbCollide obj1 obj2 deltaTime c =
    if XHit obj1 obj2 deltaTime c.toi ∧ YHit obj1 obj2 deltaTime c.toi then
      (true, (getFirstCollision
        [(xFaceHit obj1 obj2 deltaTime).2, (yFaceHit obj1 obj2 deltaTime).2] c).2)
    else if XHit obj1 obj2 deltaTime c.toi then (true, (xFaceHit obj1 obj2 deltaTime).2)
    else if YHit obj1 obj2 deltaTime c.toi then (true, (yFaceHit obj1 obj2 deltaTime).2)
    else (false, { c with toi := -1 }) :=
  rfl

variable {obj1 obj2 deltaTime c}

theorem xFaceHit_hit (h : (xFaceHit obj1 obj2 deltaTime).1 = true) :
    ∃ x ∈ xFaces obj2, HitX obj1 deltaTime x (xFaceHit obj1 obj2 deltaTime).2 := by
  rcases ballXCollide_first_hit h with hx | ⟨y, hy, -⟩
  · exact hx
  · cases hy

theorem yFaceHit_hit (h : (yFaceHit obj1 obj2 deltaTime).1 = true) :
    ∃ y ∈ yFaces obj2, HitY obj1 deltaTime y (yFaceHit obj1 obj2 deltaTime).2 := by
  rcases ballYCollide_first_hit h with ⟨x, hx, -⟩ | hy
  · cases hx
  · exact hy

variable {τ : F}

theorem XHit.valid (h : XHit obj1 obj2 deltaTime τ) :
    isValidToi (xFaceHit obj1 obj2 deltaTime).2.toi = true :=
  (getFirstCollision_hit h.1).2.1

theorem YHit.valid (h : YHit obj1 obj2 deltaTime τ) :
    isValidToi (yFaceHit obj1 obj2 deltaTime).2.toi = true :=
  (getFirstCollision_hit h.1).2.1

end Test

section Axes
variable {F : Type}

/-- The same with the axes exchanged. -/
def Vector.swapAxes (v : Vector F) : Vector F := ⟨v.y, v.x⟩

def GameObj.swapAxes (obj : GameObj F) : GameObj F :=
  ⟨obj.speed, obj.pos.swapAxes, obj.velocity.swapAxes, obj.size.swapAxes⟩

def CollInfo.swapAxes (c : CollInfo F) : CollInfo F := ⟨c.toi, c.normal.swapAxes, c.pos.swapAxes⟩

variable [Field F] [LinearOrder F]

theorem ballYCollide_swapAxes (ball : GameObj F) (y deltaTime : Int) :
    (ballYCollide ball y deltaTime .zero).2 =
      (ballXCollide ball.swapAxes y deltaTime .zero).2.swapAxes := by
  rw [ballYCollide_eq, ballXCollide_eq]
  by_cases h : isValidToi ((contactY ball y - ball.pos.y) / (ball.velocity.y * deltaTime)) = true
  · have hx : isValidToi ((contactX ball.swapAxes y - ball.swapAxes.pos.x) /
        (ball.swapAxes.velocity.x * deltaTime)) = true := h
    dsimp only
    rw [if_pos h, if_pos hx]
    rfl
  · have hx : ¬ isValidToi ((contactX ball.swapAxes y - ball.swapAxes.pos.x) /
        (ball.swapAxes.velocity.x * deltaTime)) = true := h
    dsimp only
    rw [if_neg h, if_neg hx]
    rfl

/-- Two lines that are reached at the same time are found with the same position. -/
theorem ballXCollide_toi_inj {ball : GameObj F} {x x' deltaTime : Int} {c : CollInfo F}
    (h : (ballXCollide ball x deltaTime c).2.toi = (ballXCollide ball x' deltaTime c).2.toi) :
    (ballXCollide ball x deltaTime c).2 = (ballXCollide ball x' deltaTime c).2 := by
  rw [ballXCollide_toi, ballXCollide_toi] at h
  rw [ballXCollide_eq, ballXCollide_eq]
  dsimp only
  rw [h]

theorem keepEarlier_swapAxes (a b : CollInfo F) :
    keepEarlier a.swapAxes b.swapAxes = (keepEarlier a b).swapAxes := by
  unfold keepEarlier
  split_ifs <;> first | rfl | contradiction

theorem getFirstCollision_swapAxes (cs : List (CollInfo F)) (r : CollInfo F) :
    getFirstCollision (cs.map CollInfo.swapAxes) r.swapAxes =
      ((getFirstCollision cs r).1, (getFirstCollision cs r).2.swapAxes) := by
  have hfold : ∀ first : CollInfo F, (cs.map CollInfo.swapAxes).foldl keepEarlier first.swapAxes =
      (cs.foldl keepEarlier first).swapAxes := by
    induction cs with
    | nil => exact fun _ => rfl
    | cons c cs ih =>
      intro first
      rw [List.map_cons, List.foldl_cons, List.foldl_cons, keepEarlier_swapAxes, ih]
  have hstart := hfold { r with toi := 99 }
  have hsame : ({ r.swapAxes with toi := 99 } : CollInfo F) =
      CollInfo.swapAxes { r with toi := 99 } := rfl
  simp only [getFirstCollision, hsame, hstart]
  rfl

theorem getFirstCollision_comm {a b : CollInfo F} (h : a.toi = b.toi → a = b) (r : CollInfo F) :
    getFirstCollision [a, b] r = getFirstCollision [b, a] r := by
  simp only [getFirstCollision, List.foldl_cons, List.foldl_nil, keepEarlier]
  rcases lt_trichotomy a.toi b.toi with hlt | heq | hlt
  · split_ifs <;> grind
  · rw [h heq]
  · split_ifs <;> grind

variable [FloorRing F]

theorem yFaceHit_swapAxes (obj1 obj2 : GameObj F) (deltaTime : Int) :
    yFaceHit obj1 obj2 deltaTime = ((xFaceHit obj1.swapAxes obj2.swapAxes deltaTime).1,
      (xFaceHit obj1.swapAxes obj2.swapAxes deltaTime).2.swapAxes) := by
  unfold xFaceHit yFaceHit
  rw [getFirstCollision_comm (a := (ballXCollide obj1.swapAxes _ deltaTime .zero).2)
    ballXCollide_toi_inj, ← getFirstCollision_swapAxes]
  simp only [List.map_cons, List.map_nil, ← ballYCollide_swapAxes]
  rfl

end Axes

end CPong
