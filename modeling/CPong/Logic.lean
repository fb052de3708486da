import CPong.Engine
import CPong.Lib.Loop
import Mathlib.Data.Fintype.Pi
import Mathlib.Data.Rat.Floor

/-!
# The game logic

`cpong_logic.c`: the initial state of a round, the swept collision tests and the loop
that advances the ball by one tick.
-/

namespace CPong

set_option autoImplicit false

open Lib (trunc)

@[ext]
structure PongState (F : Type) where
  playerIds : Fin 2 → I32
  ownIdIndex : I32
  score : Fin 2 → I32
  player1 : GameObj F
  player2 : GameObj F
  ball : GameObj F
  boxSize : Vector F
deriving DecidableEq

structure Wall where
  up : Int
  down : Int
  left : Int
  right : Int
deriving DecidableEq, Repr

/-- The results of the three calls of `rand` in one `init_ball`. -/
structure Rands where
  angle : Nat
  dirX : Nat
  dirY : Nat
deriving DecidableEq, Repr

/-- Rational approximations, to run the model. `sqrtf` is the tangent of the root at 1 and no root
away from it, so a rational run in which the ball bounces at less than `0.63` is not the code's. -/
instance : Libm ℚ where
  sqrtf x := (1 + x) / 2
  cos x := 1 - x ^ 2 / 2
  sin x := x - x ^ 3 / 6

section Init
variable {F : Type} [Field F] [LinearOrder F] [FloorRing F] [Libm F]

def pi : F := 3.1415

def vectorRandomAngle (min max step : F) (rnd : Nat) : Vector F :=
  let range := trunc ((max - min) / step)
  let rndAmount := (rnd : Int).tmod range
  let rndAngle := min + step * (rndAmount : F)
  ⟨Libm.cos rndAngle, Libm.sin rndAngle⟩

def initPaddle (paddle : GameObj F) : GameObj F :=
  { paddle with size := ⟨10, 50⟩, speed := 0.5, velocity := ⟨0, 0⟩ }

def initBall (ball : GameObj F) (rands : Rands) : GameObj F :=
  let speed : F := 0.05
  let angle := vectorRandomAngle (pi / 6 : F) (pi / 3) 0.1 rands.angle
  let dirX : Int := (rands.dirX % 2 : Nat) * 2 - 1
  let dirY : Int := (rands.dirY % 2 : Nat) * 2 - 1
  { ball with
    size := ⟨10, 10⟩
    speed := speed
    velocity := ⟨angle.x * dirX * speed, angle.y * dirY * speed⟩ }

def initGame (state : PongState F) (rands : Rands) : PongState F :=
  let boxSize : Vector F := ⟨480, 320⟩
  let player1 := initPaddle state.player1
  let player2 := initPaddle state.player2
  let ball := initBall state.ball rands
  { state with
    boxSize := boxSize
    player1 := { player1 with pos := ⟨boxSize.x - player1.size.x / 2, boxSize.y / 2⟩ }
    player2 := { player2 with pos := ⟨player1.size.x / 2, boxSize.y / 2⟩ }
    ball := { ball with pos := ⟨boxSize.x / 2, boxSize.y / 2⟩ } }

end Init

section Collide
variable {F : Type} [Field F] [LinearOrder F]

def dirOf (v : F) : Int := if v > 0 then 1 else -1

/-- A result written to `*coll_info` only as far as the call came. -/
def ballXCollide (ball : GameObj F) (x : Int) (deltaTime : Int) (collInfo : CollInfo F) :
    Bool × CollInfo F :=
  let ballNext := linearMove ball deltaTime
  let dir := dirOf ball.velocity.x
  let toi := (x - dir * ball.size.x / 2 - ball.pos.x) / (ballNext.pos.x - ball.pos.x)
  if isValidToi toi then
    (true, ⟨toi, ⟨-dir, 0⟩, linearInterpolate ball.pos ballNext.pos toi⟩)
  else (false, { collInfo with toi := toi })

def ballYCollide (ball : GameObj F) (y : Int) (deltaTime : Int) (collInfo : CollInfo F) :
    Bool × CollInfo F :=
  let ballNext := linearMove ball deltaTime
  let dir := dirOf ball.velocity.y
  let toi := (y - dir * ball.size.y / 2 - ball.pos.y) / (ballNext.pos.y - ball.pos.y)
  if isValidToi toi then
    (true, ⟨toi, ⟨0, -dir⟩, linearInterpolate ball.pos ballNext.pos toi⟩)
  else (false, { collInfo with toi := toi })

variable [FloorRing F]

def aabbCollide (obj1 obj2 : GameObj F) (deltaTime : Int) (collInfo : CollInfo F) :
    Bool × CollInfo F :=
  let obj2Bounds := aabbGetBoundaries obj2
  let obj2Next := linearMove obj2 deltaTime
  -- the position of `obj2` is taken at the toi that `*coll_info` holds on entry
  let obj2AtToi := { obj2 with pos := linearInterpolate obj2.pos obj2Next.pos collInfo.toi }
  let obj2BoundsAtToi := aabbGetBoundaries obj2AtToi
  let xColl := getFirstCollision
    [(ballXCollide obj1 (trunc obj2Bounds.left) deltaTime .zero).2,
     (ballXCollide obj1 (trunc obj2Bounds.right) deltaTime .zero).2] .zero
  let obj1AtX := aabbGetBoundaries { obj1 with pos := xColl.2.pos }
  let xHit := xColl.1 ∧ ¬ (obj1AtX.up < obj2BoundsAtToi.down ∨ obj1AtX.down > obj2BoundsAtToi.up)
  let yColl := getFirstCollision
    [(ballYCollide obj1 (trunc obj2Bounds.up) deltaTime .zero).2,
     (ballYCollide obj1 (trunc obj2Bounds.down) deltaTime .zero).2] .zero
  let obj1AtY := aabbGetBoundaries { obj1 with pos := yColl.2.pos }
  let yHit := yColl.1 ∧
    ¬ (obj1AtY.right < obj2BoundsAtToi.left ∨ obj1AtY.left > obj2BoundsAtToi.right)
  if xHit ∧ yHit then (true, (getFirstCollision [xColl.2, yColl.2] collInfo).2)
  else if xHit then (true, xColl.2)
  else if yHit then (true, yColl.2)
  else (false, { collInfo with toi := -1 })

omit [FloorRing F] in
def ballWallCollide (wall : Wall) (ball : GameObj F) (deltaTime : Int) (collInfo : CollInfo F) :
    Bool × CollInfo F :=
  getFirstCollision
    [(ballYCollide ball wall.up deltaTime .zero).2,
     (ballYCollide ball wall.down deltaTime .zero).2] collInfo

omit [FloorRing F] in
def ballScoreCollide (wall : Wall) (ball : GameObj F) (deltaTime : Int) (collInfo : CollInfo F) :
    Int × CollInfo F :=
  let leftColl := ballXCollide ball wall.left deltaTime collInfo
  if leftColl.1 then (0, leftColl.2)
  else
    let rightColl := ballXCollide ball wall.right deltaTime leftColl.2
    if rightColl.1 then (1, rightColl.2) else (-1, rightColl.2)

end Collide

section Advance
variable {F : Type} [Field F] [LinearOrder F] [FloorRing F] [Libm F]

omit [FloorRing F] in
def ballBounceOnCollision (ball : GameObj F) (normal : Vector F) : GameObj F :=
  let velocity := reflectOrthogonal ball.velocity normal
  let x := velocity.y
  let y := velocity.x
  let hyp := Libm.sqrtf (x * x + y * y)
  if hyp > 0.63 then { ball with velocity := velocity }
  else
    let speedUp : F := 0.01
    let cos := y / hyp
    let sin := x / hyp
    { ball with velocity := ⟨velocity.x + speedUp * cos, velocity.y + speedUp * sin⟩ }

/-- The locals of `ball_advance` at the head of its loop; `*scored_index` is `none` until
it is first written. -/
@[ext]
structure AdvanceState (F : Type) where
  ball : GameObj F
  passedTime : F
  scoredIndex : Option Int
deriving DecidableEq, Repr

structure Advanced (F : Type) where
  ballUpd : Option (GameObj F)
  scoredIndex : Option Int
deriving DecidableEq, Repr

/-- The four collisions tested in one trip, in the order of `collisions[4]`. Paddles and
walls are tested over the whole tick, the goals over what is left of it. -/
structure Collisions (F : Type) where
  paddle1 : CollInfo F
  paddle2 : CollInfo F
  wall : CollInfo F
  score : CollInfo F
  scoredIndex : Int
deriving DecidableEq, Repr

def collide (wall : Wall) (paddle1 paddle2 : GameObj F) (deltaTime : Int) (s : AdvanceState F) :
    Collisions F :=
  let score := ballScoreCollide wall s.ball (trunc (deltaTime - s.passedTime)) .zero
  { paddle1 := (aabbCollide s.ball paddle1 deltaTime .zero).2
    paddle2 := (aabbCollide s.ball paddle2 deltaTime .zero).2
    wall := (ballWallCollide wall s.ball deltaTime .zero).2
    score := score.2
    scoredIndex := score.1 }

def Collisions.first (c : Collisions F) : Bool × CollInfo F :=
  getFirstCollision [c.paddle1, c.paddle2, c.wall, c.score] .zero

def advanceBody (wall : Wall) (paddle1 paddle2 : GameObj F) (deltaTime : Int)
    (s : AdvanceState F) : AdvanceState F ⊕ Advanced F :=
  if s.passedTime < deltaTime then
    let ballNext := linearMove s.ball (trunc (deltaTime - s.passedTime))
    let collisions := collide wall paddle1 paddle2 deltaTime s
    let collInfo := collisions.first.2
    if ¬ collisions.first.1 then .inr ⟨some ballNext, some (-1)⟩
    else if collInfo.toi = collisions.score.toi then .inr ⟨none, some collisions.scoredIndex⟩
    else .inl
      { ball := ballBounceOnCollision { s.ball with pos := collInfo.pos } collInfo.normal
        passedTime := s.passedTime + collInfo.toi
        scoredIndex := some (-1) }
  else .inr ⟨some s.ball, s.scoredIndex⟩

def advanceStart (ball : GameObj F) : AdvanceState F := ⟨ball, 0, none⟩

/-- `ball_advance` with at most `fuel` trips round its loop. -/
def ballAdvance (fuel : Nat) (wall : Wall) (paddle1 paddle2 ball : GameObj F) (deltaTime : Int) :
    Option (Advanced F) :=
  Lib.Loop.run (advanceBody wall paddle1 paddle2 deltaTime) fuel (advanceStart ball)

end Advance

end CPong
