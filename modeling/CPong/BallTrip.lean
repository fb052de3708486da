import CPong.Logic
import Mathlib.Analysis.SpecialFunctions.Trigonometric.Basic
import Mathlib.Tactic.Linarith

/-!
# One trip of the loop that advances the ball

What a collision test reports: a side of the ball reaches a line of a paddle, a wall or a
goal after a part `toi` of the time tested. Then the four ways a trip can end.
-/

namespace CPong

set_option autoImplicit false

open Lib (trunc)
open Lib.Loop (Head)

section Axis
variable {F : Type} [Field F] {p v c t τ : F}

theorem reach_of_div_ne_zero (h : (c - p) / (v * t) ≠ 0) : p + v * ((c - p) / (v * t) * t) = c := by
  have hvt : v * t ≠ 0 := (div_ne_zero_iff.mp h).2
  have hv : v ≠ 0 := left_ne_zero_of_mul hvt
  have ht : t ≠ 0 := right_ne_zero_of_mul hvt
  field_simp
  ring

variable [LinearOrder F] [IsStrictOrderedRing F]

theorem valid_div_iff (ht : 0 < t) :
    isValidToi ((c - p) / (v * t)) = true ↔ 0 < (c - p) * v ∧ (c - p) * v ≤ v * v * t := by
  rw [isValidToi_iff]
  by_cases hv : v = 0
  · simp [hv]
  · have hvv : 0 < v * v := mul_self_pos.mpr hv
    have hden : 0 < v * v * t := mul_pos hvv ht
    have hform : (c - p) / (v * t) = (c - p) * v / (v * v * t) := by
      field_simp
    rw [hform, div_pos_iff_of_pos_right hden, div_le_one hden]

/-- A part `τ` of the time, no later than the line ahead is reached in it, does not carry
past the line. -/
theorem not_past_line (ht : 0 < t) (hahead : 0 < (c - p) * v) (hτ : 0 < τ ∧ τ ≤ 1)
    (hfirst : isValidToi ((c - p) / (v * t)) = true → τ ≤ (c - p) / (v * t)) :
    0 ≤ (c - (p + v * (τ * t))) * v := by
  have hv : v ≠ 0 := right_ne_zero_of_mul hahead.ne'
  have hden : 0 < v * v * t := mul_pos (mul_self_pos.mpr hv) ht
  have hgoal : τ * (v * v * t) ≤ (c - p) * v := by
    by_cases hvalid : isValidToi ((c - p) / (v * t)) = true
    · have hle := hfirst hvalid
      have hform : (c - p) / (v * t) = (c - p) * v / (v * v * t) := by
        field_simp
      rwa [hform, le_div_iff₀ hden] at hle
    · have hfar : v * v * t < (c - p) * v := by
        by_contra hle
        exact hvalid ((valid_div_iff ht).mpr ⟨hahead, not_lt.mp hle⟩)
      have hτle : τ * (v * v * t) ≤ v * v * t := mul_le_of_le_one_left hden.le hτ.2
      exact hτle.trans hfar.le
  linarith

end Axis

section Hits
variable {F : Type} [Field F] [LinearOrder F]

/-- The `x` of the centre when the side of the ball that moves ahead is at `x`. -/
def contactX (ball : GameObj F) (x : Int) : F := x - dirOf ball.velocity.x * ball.size.x / 2

def contactY (ball : GameObj F) (y : Int) : F := y - dirOf ball.velocity.y * ball.size.y / 2

/-- `c` tells that the ball reaches the vertical line `x` in the part `c.toi` of the time. -/
structure HitX (ball : GameObj F) (deltaTime x : Int) (c : CollInfo F) : Prop where
  toi : 0 < c.toi ∧ c.toi ≤ 1
  time : deltaTime ≠ 0
  moving : ball.velocity.x ≠ 0
  normal : c.normal = ⟨-dirOf ball.velocity.x, 0⟩
  pos : c.pos = ⟨ball.pos.x + ball.velocity.x * (c.toi * deltaTime),
    ball.pos.y + ball.velocity.y * (c.toi * deltaTime)⟩
  reach : c.pos.x = contactX ball x

structure HitY (ball : GameObj F) (deltaTime y : Int) (c : CollInfo F) : Prop where
  toi : 0 < c.toi ∧ c.toi ≤ 1
  time : deltaTime ≠ 0
  moving : ball.velocity.y ≠ 0
  normal : c.normal = ⟨0, -dirOf ball.velocity.y⟩
  pos : c.pos = ⟨ball.pos.x + ball.velocity.x * (c.toi * deltaTime),
    ball.pos.y + ball.velocity.y * (c.toi * deltaTime)⟩
  reach : c.pos.y = contactY ball y

def Hit (ball : GameObj F) (deltaTime : Int) (xs ys : List Int) (c : CollInfo F) : Prop :=
  (∃ x ∈ xs, HitX ball deltaTime x c) ∨ ∃ y ∈ ys, HitY ball deltaTime y c

variable {ball obj : GameObj F} {deltaTime x y : Int} {c : CollInfo F}

theorem ballXCollide_eq : ballXCollide ball x deltaTime c =
    let toi := (contactX ball x - ball.pos.x) / (ball.velocity.x * deltaTime)
    if isValidToi toi then
      (true, ⟨toi, ⟨-dirOf ball.velocity.x, 0⟩,
        ⟨ball.pos.x + ball.velocity.x * (toi * deltaTime),
          ball.pos.y + ball.velocity.y * (toi * deltaTime)⟩⟩)
    else (false, { c with toi := toi }) := by
  have hden : ball.pos.x + ball.velocity.x * (deltaTime : F) - ball.pos.x =
      ball.velocity.x * deltaTime := add_sub_cancel_left _ _
  unfold ballXCollide contactX
  simp only [linearMove_pos_x, hden, linearInterpolate_linearMove]

theorem ballYCollide_eq : ballYCollide ball y deltaTime c =
    let toi := (contactY ball y - ball.pos.y) / (ball.velocity.y * deltaTime)
    if isValidToi toi then
      (true, ⟨toi, ⟨0, -dirOf ball.velocity.y⟩,
        ⟨ball.pos.x + ball.velocity.x * (toi * deltaTime),
          ball.pos.y + ball.velocity.y * (toi * deltaTime)⟩⟩)
    else (false, { c with toi := toi }) := by
  have hden : ball.pos.y + ball.velocity.y * (deltaTime : F) - ball.pos.y =
      ball.velocity.y * deltaTime := add_sub_cancel_left _ _
  unfold ballYCollide contactY
  simp only [linearMove_pos_y, hden, linearInterpolate_linearMove]

theorem ballXCollide_toi : (ballXCollide ball x deltaTime c).2.toi =
    (contactX ball x - ball.pos.x) / (ball.velocity.x * deltaTime) := by
  rw [ballXCollide_eq]
  dsimp only
  split <;> rfl

theorem ballYCollide_toi : (ballYCollide ball y deltaTime c).2.toi =
    (contactY ball y - ball.pos.y) / (ball.velocity.y * deltaTime) := by
  rw [ballYCollide_eq]
  dsimp only
  split <;> rfl

theorem ballXCollide_fst :
    (ballXCollide ball x deltaTime c).1 = isValidToi (ballXCollide ball x deltaTime c).2.toi := by
  rw [ballXCollide_toi, ballXCollide_eq]
  dsimp only
  split
  · rename_i h
    exact h.symm
  · rename_i h
    exact (Bool.eq_false_iff.mpr h).symm

omit [LinearOrder F] in
theorem moves_of_div_ne_zero {d v : F} (h : d / (v * deltaTime) ≠ 0) : v ≠ 0 ∧ deltaTime ≠ 0 := by
  have hmove := (div_ne_zero_iff.mp h).2
  refine ⟨left_ne_zero_of_mul hmove, ?_⟩
  rintro rfl
  simp at hmove

theorem ballXCollide_hit (h : isValidToi (ballXCollide ball x deltaTime c).2.toi = true) :
    HitX ball deltaTime x (ballXCollide ball x deltaTime c).2 := by
  rw [ballXCollide_toi] at h
  have htoi := isValidToi_iff.mp h
  rw [ballXCollide_eq]
  dsimp only
  rw [if_pos h]
  obtain ⟨hmoving, htime⟩ := moves_of_div_ne_zero htoi.1.ne'
  exact ⟨htoi, htime, hmoving, rfl, rfl, reach_of_div_ne_zero htoi.1.ne'⟩

theorem ballYCollide_hit (h : isValidToi (ballYCollide ball y deltaTime c).2.toi = true) :
    HitY ball deltaTime y (ballYCollide ball y deltaTime c).2 := by
  rw [ballYCollide_toi] at h
  have htoi := isValidToi_iff.mp h
  rw [ballYCollide_eq]
  dsimp only
  rw [if_pos h]
  obtain ⟨hmoving, htime⟩ := moves_of_div_ne_zero htoi.1.ne'
  exact ⟨htoi, htime, hmoving, rfl, rfl, reach_of_div_ne_zero htoi.1.ne'⟩

theorem Hit.toi {xs ys : List Int} (h : Hit ball deltaTime xs ys c) : 0 < c.toi ∧ c.toi ≤ 1 := by
  rcases h with ⟨x, -, hx⟩ | ⟨y, -, hy⟩
  · exact hx.toi
  · exact hy.toi

theorem Hit.time {xs ys : List Int} (h : Hit ball deltaTime xs ys c) : deltaTime ≠ 0 := by
  rcases h with ⟨x, -, hx⟩ | ⟨y, -, hy⟩
  · exact hx.time
  · exact hy.time

theorem Hit.pos {xs ys : List Int} (h : Hit ball deltaTime xs ys c) :
    c.pos = ⟨ball.pos.x + ball.velocity.x * (c.toi * deltaTime),
      ball.pos.y + ball.velocity.y * (c.toi * deltaTime)⟩ := by
  rcases h with ⟨x, -, hx⟩ | ⟨y, -, hy⟩
  · exact hx.pos
  · exact hy.pos

theorem Hit.mono {xs xs' ys ys' : List Int} (h : Hit ball deltaTime xs ys c) (hx : xs ⊆ xs')
    (hy : ys ⊆ ys') : Hit ball deltaTime xs' ys' c :=
  h.imp (fun ⟨x, hm, hhit⟩ => ⟨x, hx hm, hhit⟩) (fun ⟨y, hm, hhit⟩ => ⟨y, hy hm, hhit⟩)

theorem ballXCollide_first_hit {x₁ x₂ : Int} {r : CollInfo F}
    (h : (getFirstCollision [(ballXCollide ball x₁ deltaTime .zero).2,
      (ballXCollide ball x₂ deltaTime .zero).2] r).1 = true) :
    Hit ball deltaTime [x₁, x₂] [] (getFirstCollision
      [(ballXCollide ball x₁ deltaTime .zero).2, (ballXCollide ball x₂ deltaTime .zero).2] r).2 := by
  obtain ⟨hmem, hvalid, -⟩ := getFirstCollision_hit h
  generalize (getFirstCollision _ r).2 = first at hmem hvalid ⊢
  rw [List.mem_cons, List.mem_singleton] at hmem
  rcases hmem with rfl | rfl
  · exact Or.inl ⟨x₁, by simp, ballXCollide_hit hvalid⟩
  · exact Or.inl ⟨x₂, by simp, ballXCollide_hit hvalid⟩

theorem ballYCollide_first_hit {y₁ y₂ : Int} {r : CollInfo F}
    (h : (getFirstCollision [(ballYCollide ball y₁ deltaTime .zero).2,
      (ballYCollide ball y₂ deltaTime .zero).2] r).1 = true) :
    Hit ball deltaTime [] [y₁, y₂] (getFirstCollision
      [(ballYCollide ball y₁ deltaTime .zero).2, (ballYCollide ball y₂ deltaTime .zero).2] r).2 := by
  obtain ⟨hmem, hvalid, -⟩ := getFirstCollision_hit h
  generalize (getFirstCollision _ r).2 = first at hmem hvalid ⊢
  rw [List.mem_cons, List.mem_singleton] at hmem
  rcases hmem with rfl | rfl
  · exact Or.inr ⟨y₁, by simp, ballYCollide_hit hvalid⟩
  · exact Or.inr ⟨y₂, by simp, ballYCollide_hit hvalid⟩

theorem ballScoreCollide_index (wall : Wall) (ball : GameObj F) (deltaTime : Int)
    (c : CollInfo F) :
    (ballScoreCollide wall ball deltaTime c).1 = -1 ∧
        isValidToi (ballScoreCollide wall ball deltaTime c).2.toi = false ∨
      ((ballScoreCollide wall ball deltaTime c).1 = 0 ∨
          (ballScoreCollide wall ball deltaTime c).1 = 1) ∧
        isValidToi (ballScoreCollide wall ball deltaTime c).2.toi = true := by
  unfold ballScoreCollide
  dsimp only
  split
  · rename_i hleft
    rw [ballXCollide_fst] at hleft
    exact Or.inr ⟨Or.inl rfl, hleft⟩
  · split
    · rename_i hright
      rw [ballXCollide_fst] at hright
      exact Or.inr ⟨Or.inr rfl, hright⟩
    · rename_i hright
      rw [ballXCollide_fst] at hright
      exact Or.inl ⟨rfl, Bool.eq_false_iff.mpr hright⟩

theorem ballScoreCollide_hit {wall : Wall}
    (h : isValidToi (ballScoreCollide wall ball deltaTime c).2.toi = true) :
    Hit ball deltaTime [wall.left, wall.right] [] (ballScoreCollide wall ball deltaTime c).2 := by
  revert h
  unfold ballScoreCollide
  dsimp only
  split
  · intro h
    exact Or.inl ⟨wall.left, by simp, ballXCollide_hit h⟩
  · split
    · intro h
      exact Or.inl ⟨wall.right, by simp, ballXCollide_hit h⟩
    · intro h
      exact Or.inl ⟨wall.right, by simp, ballXCollide_hit h⟩

theorem ballScoreCollide_valid {wall : Wall} (hx : x = wall.left ∨ x = wall.right)
    (h : isValidToi (ballXCollide ball x deltaTime .zero).2.toi = true) :
    isValidToi (ballScoreCollide wall ball deltaTime c).2.toi = true := by
  rw [ballXCollide_toi] at h
  unfold ballScoreCollide
  dsimp only
  split
  · rename_i hleft
    rwa [ballXCollide_fst] at hleft
  · rename_i hleft
    rw [ballXCollide_fst, ballXCollide_toi] at hleft
    rcases hx with rfl | rfl
    · exact absurd h hleft
    · have hright (d : CollInfo F) :
          isValidToi (ballXCollide ball wall.right deltaTime d).2.toi = true := by
        rwa [ballXCollide_toi]
      rw [if_pos (by rw [ballXCollide_fst]; exact hright _)]
      exact hright _

variable [IsStrictOrderedRing F]

theorem dirOf_ne_zero (v : F) : (dirOf v : F) ≠ 0 := by
  unfold dirOf
  split <;> simp

theorem HitX.reflect (h : HitX ball deltaTime x c) :
    reflectOrthogonal ball.velocity c.normal = ⟨-ball.velocity.x, ball.velocity.y⟩ := by
  unfold reflectOrthogonal
  rw [h.normal, if_neg (neg_ne_zero.mpr (dirOf_ne_zero _))]

omit [IsStrictOrderedRing F] in
theorem HitY.reflect (h : HitY ball deltaTime y c) :
    reflectOrthogonal ball.velocity c.normal = ⟨ball.velocity.x, -ball.velocity.y⟩ := by
  unfold reflectOrthogonal
  rw [h.normal, if_pos rfl]

theorem ballWallCollide_hit {wall : Wall}
    (h : isValidToi (ballWallCollide wall ball deltaTime c).2.toi = true) :
    Hit ball deltaTime [] [wall.up, wall.down] (ballWallCollide wall ball deltaTime c).2 :=
  ballYCollide_first_hit (getFirstCollision_fst_of_valid h)

theorem ballWallCollide_le {wall : Wall} (hy : y = wall.up ∨ y = wall.down)
    (h : isValidToi (ballYCollide ball y deltaTime .zero).2.toi = true) :
    isValidToi (ballWallCollide wall ball deltaTime c).2.toi = true ∧
      (ballWallCollide wall ball deltaTime c).2.toi ≤
        (ballYCollide ball y deltaTime .zero).2.toi := by
  have hmem : (ballYCollide ball y deltaTime .zero).2 ∈
      [(ballYCollide ball wall.up deltaTime .zero).2,
        (ballYCollide ball wall.down deltaTime .zero).2] := by
    rcases hy with rfl | rfl <;> simp
  obtain ⟨hfound, hle⟩ := getFirstCollision_le (r := c) hmem h
  exact ⟨(getFirstCollision_hit hfound).2.1, hle⟩

variable [FloorRing F]

/-- The lines at which `aabbCollide` tests the object, at its place when the tick begins. -/
def xFaces (obj : GameObj F) : List Int :=
  [trunc (aabbGetBoundaries obj).left, trunc (aabbGetBoundaries obj).right]

def yFaces (obj : GameObj F) : List Int :=
  [trunc (aabbGetBoundaries obj).up, trunc (aabbGetBoundaries obj).down]

theorem aabbCollide_hit (h : isValidToi (aabbCollide ball obj deltaTime c).2.toi = true) :
    Hit ball deltaTime (xFaces obj) (yFaces obj) (aabbCollide ball obj deltaTime c).2 := by
  revert h
  unfold aabbCollide
  dsimp only
  generalize hx : getFirstCollision [(ballXCollide ball _ deltaTime .zero).2, _] .zero = xColl
  generalize hy : getFirstCollision [(ballYCollide ball _ deltaTime .zero).2, _] .zero = yColl
  have hxHit (h : xColl.1 = true) : Hit ball deltaTime (xFaces obj) (yFaces obj) xColl.2 := by
    rw [← hx] at h ⊢
    exact (ballXCollide_first_hit h).mono (fun _ hm => hm) (List.nil_subset _)
  have hyHit (h : yColl.1 = true) : Hit ball deltaTime (xFaces obj) (yFaces obj) yColl.2 := by
    rw [← hy] at h ⊢
    exact (ballYCollide_first_hit h).mono (List.nil_subset _) (fun _ hm => hm)
  split
  · rename_i hboth
    intro h
    have hmem := (getFirstCollision_hit (getFirstCollision_fst_of_valid h)).1
    dsimp only at hmem ⊢
    generalize (getFirstCollision _ c).2 = first at hmem ⊢
    rw [List.mem_cons, List.mem_singleton] at hmem
    rcases hmem with rfl | rfl
    · exact hxHit hboth.1.1
    · exact hyHit hboth.2.1
  · split
    · rename_i hxh
      intro _
      exact hxHit hxh.1
    · split
      · rename_i hyh
        intro _
        exact hyHit hyh.1
      · intro h
        have hpos := (isValidToi_iff.mp h).1
        norm_num at hpos

end Hits

section Trip
variable {F : Type} [Field F] [LinearOrder F]

theorem Collisions.first_hit {c : Collisions F} (h : c.first.1 = true) :
    (c.first.2 = c.paddle1 ∨ c.first.2 = c.paddle2 ∨ c.first.2 = c.wall ∨ c.first.2 = c.score) ∧
      isValidToi c.first.2.toi = true := by
  obtain ⟨hmem, hvalid, -⟩ := getFirstCollision_hit h
  exact ⟨by simpa [Collisions.first] using hmem, hvalid⟩

variable [FloorRing F]

def xLines (paddle1 paddle2 : GameObj F) : List Int := xFaces paddle1 ++ xFaces paddle2

def yLines (wall : Wall) (paddle1 paddle2 : GameObj F) : List Int :=
  yFaces paddle1 ++ yFaces paddle2 ++ [wall.up, wall.down]

section
variable [IsStrictOrderedRing F] {wall : Wall} {paddle1 paddle2 : GameObj F} {deltaTime : Int}
  {s : AdvanceState F}

/-- A wall within reach is hit, or something is before it. -/
theorem collide_first_le_wall {y : Int} (hy : y = wall.up ∨ y = wall.down)
    (h : isValidToi (ballYCollide s.ball y deltaTime .zero).2.toi = true) :
    (collide wall paddle1 paddle2 deltaTime s).first.1 = true ∧
      (collide wall paddle1 paddle2 deltaTime s).first.2.toi ≤
        (ballYCollide s.ball y deltaTime .zero).2.toi := by
  obtain ⟨hvalid, hle⟩ := ballWallCollide_le (c := .zero) hy h
  have hmem : (collide wall paddle1 paddle2 deltaTime s).wall ∈
      [(collide wall paddle1 paddle2 deltaTime s).paddle1,
        (collide wall paddle1 paddle2 deltaTime s).paddle2,
        (collide wall paddle1 paddle2 deltaTime s).wall,
        (collide wall paddle1 paddle2 deltaTime s).score] := by simp
  obtain ⟨hfound, hfirst⟩ := getFirstCollision_le (r := .zero) hmem hvalid
  exact ⟨hfound, hfirst.trans hle⟩

theorem collide_first_of_goal {x : Int} (hx : x = wall.left ∨ x = wall.right)
    (h : isValidToi
      (ballXCollide s.ball x (trunc (deltaTime - s.passedTime)) .zero).2.toi = true) :
    (collide wall paddle1 paddle2 deltaTime s).first.1 = true := by
  have hmem : (collide wall paddle1 paddle2 deltaTime s).score ∈
      [(collide wall paddle1 paddle2 deltaTime s).paddle1,
        (collide wall paddle1 paddle2 deltaTime s).paddle2,
        (collide wall paddle1 paddle2 deltaTime s).wall,
        (collide wall paddle1 paddle2 deltaTime s).score] := by simp
  exact (getFirstCollision_le (r := .zero) hmem (ballScoreCollide_valid hx h)).1

end

variable [Libm F]

/-- How a trip ends: the time is over, nothing is hit, a goal is, or the ball bounces. -/
inductive Trip (wall : Wall) (paddle1 paddle2 : GameObj F) (deltaTime : Int)
    (s : AdvanceState F) : AdvanceState F ⊕ Advanced F → Prop
  | timeUp (htime : ¬ s.passedTime < deltaTime) :
      Trip wall paddle1 paddle2 deltaTime s (.inr ⟨some s.ball, s.scoredIndex⟩)
  | free (htime : s.passedTime < deltaTime)
      (hnone : (collide wall paddle1 paddle2 deltaTime s).first.1 = false) :
      Trip wall paddle1 paddle2 deltaTime s
        (.inr ⟨some (linearMove s.ball (trunc (deltaTime - s.passedTime))), some (-1)⟩)
  | score (htime : s.passedTime < deltaTime) (i : Int) (hi : i = 0 ∨ i = 1)
      (hfirst : (collide wall paddle1 paddle2 deltaTime s).first.1 = true)
      (heq : (collide wall paddle1 paddle2 deltaTime s).first.2.toi =
        (collide wall paddle1 paddle2 deltaTime s).score.toi) :
      Trip wall paddle1 paddle2 deltaTime s (.inr ⟨none, some i⟩)
  | bounce (htime : s.passedTime < deltaTime) (c : CollInfo F)
      (hfirst : (collide wall paddle1 paddle2 deltaTime s).first = (true, c))
      (hne : c.toi ≠ (collide wall paddle1 paddle2 deltaTime s).score.toi)
      (hhit : Hit s.ball deltaTime (xLines paddle1 paddle2) (yLines wall paddle1 paddle2) c) :
      Trip wall paddle1 paddle2 deltaTime s (.inl
        ⟨ballBounceOnCollision { s.ball with pos := c.pos } c.normal, s.passedTime + c.toi,
          some (-1)⟩)

omit [FloorRing F] in
@[simp] theorem ballBounceOnCollision_pos (ball : GameObj F) (normal : Vector F) :
    (ballBounceOnCollision ball normal).pos = ball.pos := by
  unfold ballBounceOnCollision
  dsimp only
  split <;> rfl

omit [FloorRing F] in
@[simp] theorem ballBounceOnCollision_size (ball : GameObj F) (normal : Vector F) :
    (ballBounceOnCollision ball normal).size = ball.size := by
  unfold ballBounceOnCollision
  dsimp only
  split <;> rfl

variable [IsStrictOrderedRing F]

theorem advanceBody_trip (wall : Wall) (paddle1 paddle2 : GameObj F) (deltaTime : Int)
    (s : AdvanceState F) :
    Trip wall paddle1 paddle2 deltaTime s (advanceBody wall paddle1 paddle2 deltaTime s) := by
  unfold advanceBody
  split
  · rename_i htime
    dsimp only
    split
    · rename_i hnone
      exact .free htime (Bool.eq_false_iff.mpr hnone)
    · rename_i hfirst
      have hfirst' := not_not.mp hfirst
      obtain ⟨hmem, hvalid⟩ := Collisions.first_hit hfirst'
      split
      · rename_i heq
        apply Trip.score htime _ _ hfirst' heq
        have hscore : isValidToi (collide wall paddle1 paddle2 deltaTime s).score.toi = true := by
          rw [← heq]
          exact hvalid
        rcases ballScoreCollide_index wall s.ball _ .zero with hidx | hidx
        · exact absurd (hidx.2.symm.trans hscore) (by simp)
        · exact hidx.1
      · rename_i hne
        refine .bounce htime _ (Prod.ext hfirst' rfl) hne ?_
        generalize (collide wall paddle1 paddle2 deltaTime s).first.2 = first at hmem hvalid hne ⊢
        unfold xLines yLines
        rcases hmem with rfl | rfl | rfl | rfl
        · exact (aabbCollide_hit hvalid).mono (by simp) (by simp)
        · exact (aabbCollide_hit hvalid).mono (by simp) (by simp)
        · exact (ballWallCollide_hit hvalid).mono (by simp) (by simp)
        · exact absurd rfl hne
  · rename_i htime
    exact .timeUp htime

theorem head_ball_size {wall : Wall} {paddle1 paddle2 ball : GameObj F} {deltaTime : Int}
    {s : AdvanceState F}
    (h : Head (advanceBody wall paddle1 paddle2 deltaTime) (advanceStart ball) s) :
    s.ball.size = ball.size := by
  refine Head.invariant (I := fun s : AdvanceState F => s.ball.size = ball.size) rfl ?_ h
  intro a b _ hsize hab
  have htrip := advanceBody_trip wall paddle1 paddle2 deltaTime a
  rw [hab] at htrip
  cases htrip with
  | bounce htime c hfirst hne hhit => exact (ballBounceOnCollision_size _ _).trans hsize

end Trip

section Bounce

noncomputable instance : Libm ℝ where
  sqrtf := Real.sqrt
  cos := Real.cos
  sin := Real.sin

noncomputable def speedOf (v : Vector ℝ) : ℝ := Real.sqrt (v.x * v.x + v.y * v.y)

variable (ball : GameObj ℝ) (normal v : Vector ℝ)

theorem speedOf_scale {k : ℝ} (hk : 0 ≤ k) : speedOf ⟨k * v.x, k * v.y⟩ = k * speedOf v := by
  have hsq : k * v.x * (k * v.x) + k * v.y * (k * v.y) = k ^ 2 * (v.x * v.x + v.y * v.y) := by ring
  unfold speedOf
  rw [hsq, Real.sqrt_mul (sq_nonneg k), Real.sqrt_sq hk]

theorem speedOf_reflect : speedOf (reflectOrthogonal v normal) = speedOf v := by
  unfold speedOf reflectOrthogonal
  split <;> simp

theorem abs_x_le_speedOf : |v.x| ≤ speedOf v := by
  apply Real.abs_le_sqrt
  nlinarith [mul_self_nonneg v.y]

theorem abs_y_le_speedOf : |v.y| ≤ speedOf v := by
  apply Real.abs_le_sqrt
  nlinarith [mul_self_nonneg v.x]

theorem ballBounceOnCollision_of_fast (h : 0.63 < speedOf ball.velocity) :
    ballBounceOnCollision ball normal =
      { ball with velocity := reflectOrthogonal ball.velocity normal } := by
  rw [← speedOf_reflect normal] at h
  unfold ballBounceOnCollision
  unfold speedOf at h
  rw [add_comm] at h
  exact if_pos h

/-- A bounce stretches the reflected velocity, to a speed of at most `0.64` if it was no more. -/
theorem ballBounceOnCollision_velocity :
    ∃ k : ℝ, 1 ≤ k ∧ (ballBounceOnCollision ball normal).velocity =
        ⟨k * (reflectOrthogonal ball.velocity normal).x,
          k * (reflectOrthogonal ball.velocity normal).y⟩ ∧
      k * speedOf ball.velocity ≤ max (speedOf ball.velocity) 0.64 := by
  rw [← speedOf_reflect normal ball.velocity]
  unfold ballBounceOnCollision
  generalize reflectOrthogonal ball.velocity normal = w
  have hhyp : Libm.sqrtf (w.y * w.y + w.x * w.x) = speedOf w := by
    unfold speedOf
    rw [add_comm]
    rfl
  simp only [hhyp]
  have hnn : 0 ≤ speedOf w := Real.sqrt_nonneg _
  split
  · exact ⟨1, le_rfl, by simp, by simp⟩
  · rename_i hcap
    rcases hnn.eq_or_lt with hzero | hpos
    · exact ⟨1, le_rfl, by simp [← hzero], by simp⟩
    · refine ⟨1 + 0.01 / speedOf w, le_add_of_nonneg_right (by positivity), ?_, ?_⟩
      · ext
        · dsimp only
          ring
        · dsimp only
          ring
      · have hsum : (1 + 0.01 / speedOf w) * speedOf w = speedOf w + 0.01 := by
          field_simp
        rw [hsum]
        apply le_max_of_le_right
        linarith

end Bounce

end CPong
