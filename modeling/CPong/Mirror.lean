import CPong.BoxTest

/-!
# The collision tests seen in a mirror

The code tests the left goal and the first paddle before the right goal and the second
paddle; neither order shows, since no two of the collisions that it tells apart come at one
time.
-/

namespace CPong

set_option autoImplicit false

open Lib (trunc)

section Image
variable {F : Type} [Field F]

def Vector.mirrorPoint (wall : Wall) (p : Vector F) : Vector F :=
  ⟨wall.left + wall.right - p.x, p.y⟩

def Vector.mirrorDirection (v : Vector F) : Vector F := ⟨-v.x, v.y⟩

def GameObj.mirror (wall : Wall) (obj : GameObj F) : GameObj F :=
  { obj with pos := obj.pos.mirrorPoint wall, velocity := obj.velocity.mirrorDirection }

def CollInfo.mirror (wall : Wall) (c : CollInfo F) : CollInfo F :=
  ⟨c.toi, c.normal.mirrorDirection, c.pos.mirrorPoint wall⟩

def mirrorLine (wall : Wall) (x : Int) : Int := wall.left + wall.right - x

variable {wall : Wall} (obj : GameObj F)

theorem linearMove_mirror (t : Int) :
    linearMove (obj.mirror wall) t = (linearMove obj t).mirror wall := by
  ext
  · rfl
  · change (wall.left + wall.right - obj.pos.x) + -obj.velocity.x * (t : F) =
      wall.left + wall.right - (obj.pos.x + obj.velocity.x * t)
    ring
  · rfl
  · rfl
  · rfl
  · rfl
  · rfl

theorem left_mirror : (aabbGetBoundaries (obj.mirror wall)).left =
    wall.left + wall.right - (aabbGetBoundaries obj).right := by
  change (wall.left + wall.right - obj.pos.x) - obj.size.x / 2 =
    wall.left + wall.right - (obj.pos.x + obj.size.x / 2)
  ring

theorem right_mirror : (aabbGetBoundaries (obj.mirror wall)).right =
    wall.left + wall.right - (aabbGetBoundaries obj).left := by
  change (wall.left + wall.right - obj.pos.x) + obj.size.x / 2 =
    wall.left + wall.right - (obj.pos.x - obj.size.x / 2)
  ring

theorem partWay_mirror (deltaTime : Int) (τ : F) :
    partWay (obj.mirror wall) deltaTime τ = (partWay obj deltaTime τ).mirror wall := by
  have hpos : (partWay (obj.mirror wall) deltaTime τ).pos =
      (partWay obj deltaTime τ).pos.mirrorPoint wall := by
    rw [partWay_pos, partWay_pos]
    ext
    · change (wall.left + wall.right - obj.pos.x) + -obj.velocity.x * (τ * deltaTime) =
        wall.left + wall.right - (obj.pos.x + obj.velocity.x * (τ * deltaTime))
      ring
    · rfl
  exact GameObj.ext rfl hpos rfl rfl

end Image

section First
variable {F : Type} [Field F] [LinearOrder F] {wall : Wall} {c c' r r' : CollInfo F}

/-- Both are no collision, or the second is the mirror image of the first. -/
def Mirrors (wall : Wall) (c c' : CollInfo F) : Prop :=
  isValidToi c'.toi = isValidToi c.toi ∧ (isValidToi c.toi = true → c' = c.mirror wall)

/-- The same for what a scan has found so far, whose time is a bound for the next one. -/
def MirrorsFound (wall : Wall) (r r' : CollInfo F) : Prop :=
  r'.toi = r.toi ∧ (isValidToi r.toi = true → r' = r.mirror wall)

theorem MirrorsFound.mirrors (h : MirrorsFound wall r r') : Mirrors wall r r' :=
  ⟨by rw [h.1], h.2⟩

theorem MirrorsFound.keepEarlier (hr : MirrorsFound wall r r') (hc : Mirrors wall c c') :
    MirrorsFound wall (keepEarlier r c) (keepEarlier r' c') := by
  unfold CPong.keepEarlier
  by_cases hvalid : isValidToi c.toi = true
  · rw [hc.2 hvalid]
    change MirrorsFound wall _ (if isValidToi c.toi = true ∧ c.toi < r'.toi then _ else _)
    rw [hr.1]
    by_cases hlt : c.toi < r.toi
    · rw [if_pos ⟨hvalid, hlt⟩, if_pos ⟨hvalid, hlt⟩]
      exact ⟨rfl, fun _ => rfl⟩
    · rw [if_neg fun h => hlt h.2, if_neg fun h => hlt h.2]
      exact hr
  · have hvalid' : ¬ isValidToi c'.toi = true := by rwa [hc.1]
    rw [if_neg fun h => hvalid h.1, if_neg fun h => hvalid' h.1]
    exact hr

theorem MirrorsFound.foldl {cs cs' : List (CollInfo F)} (h : List.Forall₂ (Mirrors wall) cs cs')
    (hr : MirrorsFound wall r r') :
    MirrorsFound wall (cs.foldl CPong.keepEarlier r) (cs'.foldl CPong.keepEarlier r') := by
  induction h generalizing r r' with
  | nil => exact hr
  | cons hc _ ih => exact ih (hr.keepEarlier hc)

/-- The order of two collisions is immaterial unless they come at one time. -/
theorem keepEarlier_comm (r : CollInfo F) {a b : CollInfo F}
    (h : isValidToi a.toi = true → isValidToi b.toi = true → a.toi = b.toi → a = b) :
    keepEarlier (keepEarlier r a) b = keepEarlier (keepEarlier r b) a := by
  unfold keepEarlier
  by_cases ha : isValidToi a.toi = true
  · by_cases hb : isValidToi b.toi = true
    · simp only [ha, hb, true_and]
      rcases lt_trichotomy a.toi b.toi with hlt | heq | hgt
      · by_cases hbr : b.toi < r.toi
        · simp only [if_pos hbr, if_pos (hlt.trans hbr), if_pos hlt, if_neg hlt.not_gt]
        · by_cases har : a.toi < r.toi
          · simp only [if_neg hbr, if_pos har, if_neg hlt.not_gt]
          · simp only [if_neg hbr, if_neg har]
      · rw [h ha hb heq]
      · by_cases har : a.toi < r.toi
        · simp only [if_pos har, if_pos (hgt.trans har), if_pos hgt, if_neg hgt.not_gt]
        · by_cases hbr : b.toi < r.toi
          · simp only [if_neg har, if_pos hbr, if_neg hgt.not_gt]
          · simp only [if_neg har, if_neg hbr]
    · simp only [hb, Bool.false_eq_true, false_and, if_false]
  · simp only [ha, Bool.false_eq_true, false_and, if_false]

theorem getFirstCollision_swap {a b : CollInfo F} (cs : List (CollInfo F))
    (h : isValidToi a.toi = true → isValidToi b.toi = true → a.toi = b.toi → a = b) :
    getFirstCollision (a :: b :: cs) r = getFirstCollision (b :: a :: cs) r := by
  have hfold : (a :: b :: cs).foldl keepEarlier { r with toi := 99 } =
      (b :: a :: cs).foldl keepEarlier { r with toi := 99 } := by
    rw [List.foldl_cons, List.foldl_cons, keepEarlier_comm _ h]
    rfl
  unfold getFirstCollision
  rw [hfold]

variable [IsStrictOrderedRing F]

theorem getFirstCollision_mirror {cs cs' : List (CollInfo F)}
    (h : List.Forall₂ (Mirrors wall) cs cs') (r r' : CollInfo F) :
    (getFirstCollision cs' r').1 = (getFirstCollision cs r).1 ∧
      Mirrors wall (getFirstCollision cs r).2 (getFirstCollision cs' r').2 := by
  have hstart : MirrorsFound wall { r with toi := 99 } { r' with toi := 99 } := by
    refine ⟨rfl, fun hvalid => ?_⟩
    exact absurd (isValidToi_iff.mp hvalid).2 (by norm_num)
  have hfold := hstart.foldl h
  refine ⟨?_, hfold.mirrors⟩
  change decide _ = decide _
  rw [hfold.1]

theorem getFirstCollision_valid {cs : List (CollInfo F)} {r : CollInfo F} :
    isValidToi (getFirstCollision cs r).2.toi = (getFirstCollision cs r).1 := by
  cases hfst : (getFirstCollision cs r).1 with
  | true => exact (getFirstCollision_hit hfst).2.1
  | false =>
    rw [Bool.eq_false_iff]
    intro hvalid
    rw [getFirstCollision_fst_of_valid hvalid] at hfst
    cases hfst

end First

section Tests
variable {F : Type} [Field F] [LinearOrder F] [IsStrictOrderedRing F] {wall : Wall}
  {ball obj : GameObj F} {deltaTime x y : Int} {c c' : CollInfo F}

omit [IsStrictOrderedRing F] in
theorem dirOf_neg {v : F} [IsStrictOrderedRing F] (hv : v ≠ 0) : dirOf (-v) = -dirOf v := by
  unfold dirOf
  rcases lt_or_gt_of_ne hv with hneg | hpos
  · rw [if_pos (neg_pos.mpr hneg), if_neg hneg.not_gt, neg_neg]
  · rw [if_neg (neg_neg_of_pos hpos).not_gt, if_pos hpos]

theorem contactX_mirror (hv : ball.velocity.x ≠ 0) :
    contactX (ball.mirror wall) (mirrorLine wall x) - (ball.mirror wall).pos.x =
      -(contactX ball x - ball.pos.x) := by
  have hdir : dirOf (ball.mirror wall).velocity.x = -dirOf ball.velocity.x := dirOf_neg hv
  change (mirrorLine wall x : F) - dirOf (ball.mirror wall).velocity.x * ball.size.x / 2 -
    (wall.left + wall.right - ball.pos.x) = -(x - dirOf ball.velocity.x * ball.size.x / 2 - ball.pos.x)
  rw [hdir, mirrorLine]
  push_cast
  ring

theorem ballXCollide_toi_mirror :
    (ballXCollide (ball.mirror wall) (mirrorLine wall x) deltaTime c').2.toi =
      (ballXCollide ball x deltaTime c).2.toi := by
  rw [ballXCollide_toi, ballXCollide_toi]
  change _ / (-ball.velocity.x * deltaTime) = _
  by_cases hv : ball.velocity.x = 0
  · simp [hv]
  · rw [contactX_mirror hv, neg_mul, neg_div_neg_eq]

omit [LinearOrder F] [IsStrictOrderedRing F] in
theorem mirrorPoint_travelled (ball : GameObj F) (t : F) :
    (⟨(ball.mirror wall).pos.x + (ball.mirror wall).velocity.x * t,
      (ball.mirror wall).pos.y + (ball.mirror wall).velocity.y * t⟩ : Vector F) =
      Vector.mirrorPoint wall ⟨ball.pos.x + ball.velocity.x * t,
        ball.pos.y + ball.velocity.y * t⟩ := by
  ext
  · change (wall.left + wall.right - ball.pos.x) + -ball.velocity.x * t =
      wall.left + wall.right - (ball.pos.x + ball.velocity.x * t)
    ring
  · rfl

theorem HitX.mirror (h : HitX ball deltaTime x c) (h' : HitX (ball.mirror wall) deltaTime y c')
    (htoi : c'.toi = c.toi) : c' = c.mirror wall := by
  have hnormal : c'.normal = c.normal.mirrorDirection := by
    rw [h'.normal, h.normal]
    change (⟨-(dirOf (-ball.velocity.x) : F), 0⟩ : Vector F) = ⟨-(-(dirOf ball.velocity.x : F)), 0⟩
    rw [dirOf_neg h.moving]
    push_cast
    rfl
  have hpos : c'.pos = c.pos.mirrorPoint wall := by
    rw [h'.pos, h.pos, htoi, mirrorPoint_travelled]
  exact CollInfo.ext htoi hnormal hpos

omit [IsStrictOrderedRing F] in
theorem HitY.mirror (h : HitY ball deltaTime y c) (h' : HitY (ball.mirror wall) deltaTime y c')
    (htoi : c'.toi = c.toi) : c' = c.mirror wall := by
  have hnormal : c'.normal = c.normal.mirrorDirection := by
    rw [h'.normal, h.normal]
    change (⟨0, _⟩ : Vector F) = ⟨-0, _⟩
    rw [neg_zero]
    rfl
  have hpos : c'.pos = c.pos.mirrorPoint wall := by
    rw [h'.pos, h.pos, htoi, mirrorPoint_travelled]
  exact CollInfo.ext htoi hnormal hpos

theorem ballXCollide_mirror (wall : Wall) (ball : GameObj F) (x deltaTime : Int) (c c' : CollInfo F) :
    Mirrors wall (ballXCollide ball x deltaTime c).2
      (ballXCollide (ball.mirror wall) (mirrorLine wall x) deltaTime c').2 := by
  have htoi : (ballXCollide (ball.mirror wall) (mirrorLine wall x) deltaTime c').2.toi =
      (ballXCollide ball x deltaTime c).2.toi := ballXCollide_toi_mirror
  refine ⟨by rw [htoi], fun hvalid => ?_⟩
  exact (ballXCollide_hit hvalid).mirror (ballXCollide_hit (by rwa [htoi])) htoi

omit [IsStrictOrderedRing F] in
theorem ballYCollide_mirror (ball : GameObj F) (y deltaTime : Int) (c c' : CollInfo F) :
    Mirrors wall (ballYCollide ball y deltaTime c).2
      (ballYCollide (ball.mirror wall) y deltaTime c').2 := by
  have htoi : (ballYCollide (ball.mirror wall) y deltaTime c').2.toi =
      (ballYCollide ball y deltaTime c).2.toi := by
    rw [ballYCollide_toi, ballYCollide_toi]
    rfl
  refine ⟨by rw [htoi], fun hvalid => ?_⟩
  exact (ballYCollide_hit hvalid).mirror (ballYCollide_hit (by rwa [htoi])) htoi

/-- Two lines that are reached at one time are one line. -/
theorem ballXCollide_injective {x₁ x₂ : Int}
    (h₁ : isValidToi (ballXCollide ball x₁ deltaTime c).2.toi = true)
    (h₂ : isValidToi (ballXCollide ball x₂ deltaTime c).2.toi = true)
    (htoi : (ballXCollide ball x₁ deltaTime c).2.toi = (ballXCollide ball x₂ deltaTime c).2.toi) :
    x₁ = x₂ := by
  have hreach₁ := (ballXCollide_hit h₁).reach
  have hreach₂ := (ballXCollide_hit h₂).reach
  rw [(ballXCollide_hit h₁).pos, htoi] at hreach₁
  rw [(ballXCollide_hit h₂).pos, hreach₁] at hreach₂
  unfold contactX at hreach₂
  exact_mod_cast sub_left_injective hreach₂

end Tests

section BoxTests
variable {F : Type} [Field F] [LinearOrder F] [FloorRing F] {wall : Wall} {ball obj : GameObj F}
  {deltaTime : Int}

/-- The two horizontal faces of a paddle are integers in the field. -/
def IntegerFaces (wall : Wall) (obj : GameObj F) : Prop :=
  ∃ l r : Int, (aabbGetBoundaries obj).left = l ∧ (aabbGetBoundaries obj).right = r ∧
    (wall.left ≤ l ∧ l ≤ wall.right) ∧ wall.left ≤ r ∧ r ≤ wall.right

omit [LinearOrder F] [FloorRing F] in
theorem IntegerFaces.whole (h : IntegerFaces wall obj) : ∃ l r : Int,
    (aabbGetBoundaries obj).left = l ∧ (aabbGetBoundaries obj).right = r := by
  obtain ⟨l, r, hl, hr, -⟩ := h
  exact ⟨l, r, hl, hr⟩

/-- `a` lies to the left of `b` with a gap of more than `w`. -/
def Beside (w : F) (a b : GameObj F) : Prop :=
  max (aabbGetBoundaries a).left (aabbGetBoundaries a).right + w <
    min (aabbGetBoundaries b).left (aabbGetBoundaries b).right

variable [IsStrictOrderedRing F]

theorem IntegerFaces.trunc_mirror (h : IntegerFaces wall obj) :
    trunc (aabbGetBoundaries (obj.mirror wall)).left =
        mirrorLine wall (trunc (aabbGetBoundaries obj).right) ∧
      trunc (aabbGetBoundaries (obj.mirror wall)).right =
        mirrorLine wall (trunc (aabbGetBoundaries obj).left) := by
  obtain ⟨l, r, hl, hr, -⟩ := h
  have hcast (x : Int) : (wall.left : F) + wall.right - x = (mirrorLine wall x : Int) := by
    unfold mirrorLine
    push_cast
    rfl
  rw [left_mirror, right_mirror, hl, hr, hcast, hcast]
  simp only [Lib.trunc_intCast, and_self]

theorem xFaceHit_mirror (ball : GameObj F) (deltaTime : Int) (h : IntegerFaces wall obj) :
    (xFaceHit (ball.mirror wall) (obj.mirror wall) deltaTime).1 = (xFaceHit ball obj deltaTime).1 ∧
      Mirrors wall (xFaceHit ball obj deltaTime).2
        (xFaceHit (ball.mirror wall) (obj.mirror wall) deltaTime).2 := by
  obtain ⟨hleft, hright⟩ := h.trunc_mirror
  have hswap : xFaceHit (ball.mirror wall) (obj.mirror wall) deltaTime = getFirstCollision
      [(ballXCollide (ball.mirror wall) (mirrorLine wall (trunc (aabbGetBoundaries obj).left))
          deltaTime .zero).2,
        (ballXCollide (ball.mirror wall) (mirrorLine wall (trunc (aabbGetBoundaries obj).right))
          deltaTime .zero).2] .zero := by
    unfold xFaceHit
    rw [hleft, hright]
    apply getFirstCollision_swap
    intro ha hb htoi
    rw [ballXCollide_injective ha hb htoi]
  rw [hswap]
  apply getFirstCollision_mirror
  exact .cons (ballXCollide_mirror wall _ _ _ _ _) (.cons (ballXCollide_mirror wall _ _ _ _ _) .nil)

theorem yFaceHit_mirror (wall : Wall) (ball obj : GameObj F) (deltaTime : Int) :
    (yFaceHit (ball.mirror wall) (obj.mirror wall) deltaTime).1 = (yFaceHit ball obj deltaTime).1 ∧
      Mirrors wall (yFaceHit ball obj deltaTime).2
        (yFaceHit (ball.mirror wall) (obj.mirror wall) deltaTime).2 := by
  apply getFirstCollision_mirror
  exact .cons (ballYCollide_mirror _ _ _ _ _) (.cons (ballYCollide_mirror _ _ _ _ _) .nil)

omit [FloorRing F] in
theorem meetsX_mirror (a b : GameObj F) : MeetsX (a.mirror wall) (b.mirror wall) ↔ MeetsX a b := by
  unfold MeetsX
  rw [left_mirror, left_mirror, right_mirror, right_mirror, sub_lt_sub_iff_left, gt_iff_lt,
    sub_lt_sub_iff_left, or_comm]

omit [FloorRing F] [IsStrictOrderedRing F] in
theorem meetsY_mirror (a b : GameObj F) : MeetsY (a.mirror wall) (b.mirror wall) ↔ MeetsY a b :=
  Iff.rfl

theorem XHit.mirror_iff (h : IntegerFaces wall obj) (τ : F) :
    XHit (ball.mirror wall) (obj.mirror wall) deltaTime τ ↔ XHit ball obj deltaTime τ := by
  obtain ⟨hfst, hsnd⟩ := xFaceHit_mirror ball deltaTime h
  unfold XHit
  rw [hfst, partWay_mirror]
  apply and_congr_right
  intro hhit
  rw [hsnd.2 (getFirstCollision_valid.trans hhit)]
  exact meetsY_mirror { ball with pos := (xFaceHit ball obj deltaTime).2.pos } _

theorem YHit.mirror_iff (τ : F) :
    YHit (ball.mirror wall) (obj.mirror wall) deltaTime τ ↔ YHit ball obj deltaTime τ := by
  obtain ⟨hfst, hsnd⟩ := yFaceHit_mirror wall ball obj deltaTime
  unfold YHit
  rw [hfst, partWay_mirror]
  apply and_congr_right
  intro hhit
  rw [hsnd.2 (getFirstCollision_valid.trans hhit)]
  exact meetsX_mirror { ball with pos := (yFaceHit ball obj deltaTime).2.pos } _

theorem aabbCollide_mirror (ball : GameObj F) (deltaTime : Int) (h : IntegerFaces wall obj) :
    Mirrors wall (aabbCollide ball obj deltaTime .zero).2
      (aabbCollide (ball.mirror wall) (obj.mirror wall) deltaTime .zero).2 := by
  obtain ⟨-, hx⟩ := xFaceHit_mirror ball deltaTime h
  obtain ⟨-, hy⟩ := yFaceHit_mirror wall ball obj deltaTime
  rw [aabbCollide_eq, aabbCollide_eq]
  simp only [XHit.mirror_iff h, YHit.mirror_iff]
  split
  · exact (getFirstCollision_mirror (.cons hx (.cons hy .nil)) _ _).2
  · split
    · exact hx
    · split
      · exact hy
      · refine ⟨rfl, fun hvalid => ?_⟩
        exact absurd (isValidToi_iff.mp hvalid).1 (by norm_num)

/-- A ball at `x` has an `x` in common with the box. -/
def Spans (ball obj : GameObj F) (x : F) : Prop :=
  x - ball.size.x / 2 ≤ max (aabbGetBoundaries obj).left (aabbGetBoundaries obj).right ∧
    min (aabbGetBoundaries obj).left (aabbGetBoundaries obj).right ≤ x + ball.size.x / 2

theorem xFaceHit_spans (hfaces : ∃ l r : Int,
      (aabbGetBoundaries obj).left = l ∧ (aabbGetBoundaries obj).right = r)
    (hsize : 0 ≤ ball.size.x)
    (h : (xFaceHit ball obj deltaTime).1 = true) :
    Spans ball obj (xFaceHit ball obj deltaTime).2.pos.x := by
  obtain ⟨f, hf, hreach⟩ := xFaceHit_hit h
  have hface : min (aabbGetBoundaries obj).left (aabbGetBoundaries obj).right ≤ f ∧
      (f : F) ≤ max (aabbGetBoundaries obj).left (aabbGetBoundaries obj).right := by
    obtain ⟨l, r, hl, hr⟩ := hfaces
    unfold xFaces at hf
    rw [hl, hr, Lib.trunc_intCast, Lib.trunc_intCast] at hf
    rw [hl, hr]
    rcases List.mem_pair.mp hf with rfl | rfl
    · exact ⟨min_le_left _ _, le_max_left _ _⟩
    · exact ⟨min_le_right _ _, le_max_right _ _⟩
  rw [hreach.reach]
  unfold Spans contactX dirOf
  split
  · push_cast
    exact ⟨by linarith, by linarith⟩
  · push_cast
    exact ⟨by linarith, by linarith⟩

omit [IsStrictOrderedRing F] in
/-- The check of a horizontal face takes the box as it stands when the tick begins. -/
theorem YHit.spans (h : YHit ball obj deltaTime (CollInfo.zero : CollInfo F).toi) :
    Spans ball obj (yFaceHit ball obj deltaTime).2.pos.x := by
  have hstart : partWay obj deltaTime (CollInfo.zero : CollInfo F).toi = obj :=
    partWay_zero obj deltaTime
  have hmeets := h.2
  rw [hstart, meetsX_iff] at hmeets
  exact ⟨hmeets.2.trans (le_max_right _ _), (min_le_left _ _).trans hmeets.1⟩

theorem aabbCollide_spans (hfaces : ∃ l r : Int,
      (aabbGetBoundaries obj).left = l ∧ (aabbGetBoundaries obj).right = r)
    (hsize : 0 ≤ ball.size.x)
    (h : isValidToi (aabbCollide ball obj deltaTime .zero).2.toi = true) :
    Spans ball obj (aabbCollide ball obj deltaTime .zero).2.pos.x := by
  revert h
  rw [aabbCollide_eq]
  split
  · rename_i hboth
    intro h
    have hmem := (getFirstCollision_hit (getFirstCollision_fst_of_valid h)).1
    dsimp only at hmem ⊢
    generalize (getFirstCollision _ (CollInfo.zero : CollInfo F)).2 = first at hmem ⊢
    rcases List.mem_pair.mp hmem with rfl | rfl
    · exact xFaceHit_spans hfaces hsize hboth.1.1
    · exact hboth.2.spans
  · split
    · rename_i hhit
      intro _
      exact xFaceHit_spans hfaces hsize hhit.1
    · split
      · rename_i hhit
        intro _
        exact hhit.spans
      · intro h
        exact absurd (isValidToi_iff.mp h).1 (by norm_num)

/-- The ball is never at two paddles at once. -/
theorem aabbCollide_apart {paddle1 paddle2 : GameObj F} (hsize : 0 ≤ ball.size.x)
    (h₁ : ∃ l r : Int,
      (aabbGetBoundaries paddle1).left = l ∧ (aabbGetBoundaries paddle1).right = r)
    (h₂ : ∃ l r : Int,
      (aabbGetBoundaries paddle2).left = l ∧ (aabbGetBoundaries paddle2).right = r)
    (hgap : Beside ball.size.x paddle1 paddle2 ∨ Beside ball.size.x paddle2 paddle1)
    (hv₁ : isValidToi (aabbCollide ball paddle1 deltaTime .zero).2.toi = true)
    (hv₂ : isValidToi (aabbCollide ball paddle2 deltaTime .zero).2.toi = true) :
    (aabbCollide ball paddle1 deltaTime .zero).2.toi ≠
      (aabbCollide ball paddle2 deltaTime .zero).2.toi := by
  intro htoi
  obtain ⟨hlo₁, hhi₁⟩ := aabbCollide_spans h₁ hsize hv₁
  obtain ⟨hlo₂, hhi₂⟩ := aabbCollide_spans h₂ hsize hv₂
  have hpos : (aabbCollide ball paddle1 deltaTime .zero).2.pos.x =
      (aabbCollide ball paddle2 deltaTime .zero).2.pos.x := by
    rw [(aabbCollide_hit hv₁).pos, (aabbCollide_hit hv₂).pos, htoi]
  rw [hpos] at hlo₁ hhi₁
  unfold Beside at hgap
  rcases hgap with hgap | hgap <;> linarith

end BoxTests

section Goals
variable {F : Type} [Field F] [LinearOrder F] [IsStrictOrderedRing F] {wall : Wall}
  {ball : GameObj F} {deltaTime : Int} {c c' : CollInfo F}

/-- The ball's centre is between the goal lines, or has left them behind. -/
def Facing (wall : Wall) (ball : GameObj F) : Prop :=
  (wall.left ≤ ball.pos.x ∨ ball.velocity.x < 0) ∧ (ball.pos.x ≤ wall.right ∨ 0 < ball.velocity.x)

def swapIndex (scoredIndex : Int) : Int :=
  if scoredIndex = 0 then 1 else if scoredIndex = 1 then 0 else scoredIndex

theorem Facing.left_velocity (h : Facing wall ball) (hsize : 0 ≤ ball.size.x)
    (hdt : 0 ≤ deltaTime)
    (hvalid : isValidToi (ballXCollide ball wall.left deltaTime c).2.toi = true) :
    ball.velocity.x < 0 := by
  have hhit := ballXCollide_hit hvalid
  refine lt_of_le_of_ne (not_lt.mp fun hpos => ?_) hhit.moving
  have hdt' : (0 : F) < deltaTime := by
    exact_mod_cast lt_of_le_of_ne hdt hhit.time.symm
  have hway := mul_pos hpos (mul_pos hhit.toi.1 hdt')
  have hreach := hhit.reach
  rw [hhit.pos, contactX, dirOf, if_pos hpos] at hreach
  push_cast at hreach
  rcases h.1 with hin | hneg <;> linarith

theorem Facing.right_velocity (h : Facing wall ball) (hsize : 0 ≤ ball.size.x)
    (hdt : 0 ≤ deltaTime)
    (hvalid : isValidToi (ballXCollide ball wall.right deltaTime c).2.toi = true) :
    0 < ball.velocity.x := by
  have hhit := ballXCollide_hit hvalid
  by_contra hpos
  have hneg : ball.velocity.x < 0 := lt_of_le_of_ne (not_lt.mp hpos) hhit.moving
  have hdt' : (0 : F) < deltaTime := by
    exact_mod_cast lt_of_le_of_ne hdt hhit.time.symm
  have hway := mul_neg_of_neg_of_pos hneg (mul_pos hhit.toi.1 hdt')
  have hreach := hhit.reach
  rw [hhit.pos, contactX, dirOf, if_neg hpos] at hreach
  push_cast at hreach
  rcases h.2 with hin | hpos' <;> linarith

omit [LinearOrder F] [IsStrictOrderedRing F] in
theorem mirrorLine_left (wall : Wall) : mirrorLine wall wall.right = wall.left := by
  unfold mirrorLine
  omega

theorem mirrorLine_right (wall : Wall) : mirrorLine wall wall.left = wall.right := by
  unfold mirrorLine
  omega

/-- The goals change places: only one of them lies ahead of the ball. -/
theorem ballScoreCollide_mirror (h : Facing wall ball) (hsize : 0 ≤ ball.size.x)
    (hdt : 0 ≤ deltaTime) (c c' : CollInfo F) :
    Mirrors wall (ballScoreCollide wall ball deltaTime c).2
        (ballScoreCollide wall (ball.mirror wall) deltaTime c').2 ∧
      (ballScoreCollide wall (ball.mirror wall) deltaTime c').1 =
        swapIndex (ballScoreCollide wall ball deltaTime c).1 := by
  have hleft (d d' : CollInfo F) : Mirrors wall (ballXCollide ball wall.left deltaTime d).2
      (ballXCollide (ball.mirror wall) wall.right deltaTime d').2 := by
    have hmirror := ballXCollide_mirror wall ball wall.left deltaTime d d'
    rwa [mirrorLine_right] at hmirror
  have hright (d d' : CollInfo F) : Mirrors wall (ballXCollide ball wall.right deltaTime d).2
      (ballXCollide (ball.mirror wall) wall.left deltaTime d').2 := by
    have hmirror := ballXCollide_mirror wall ball wall.right deltaTime d d'
    rwa [mirrorLine_left] at hmirror
  have hexcl (d d' : CollInfo F)
      (hl : isValidToi (ballXCollide ball wall.left deltaTime d).2.toi = true) :
      ¬ isValidToi (ballXCollide ball wall.right deltaTime d').2.toi = true := by
    intro hr
    exact absurd (h.left_velocity hsize hdt hl) (h.right_velocity hsize hdt hr).not_gt
  have hsame (x : Int) (d d' : CollInfo F) :
      isValidToi (ballXCollide ball x deltaTime d).2.toi =
        isValidToi (ballXCollide ball x deltaTime d').2.toi := by
    rw [ballXCollide_toi, ballXCollide_toi]
  unfold ballScoreCollide
  simp only [ballXCollide_fst]
  by_cases hl : isValidToi (ballXCollide ball wall.left deltaTime c).2.toi = true
  · have hl' := (hright .zero c').1.trans (Bool.eq_false_iff.mpr (hexcl c .zero hl))
    rw [if_pos hl, if_neg (by rw [hl']; decide)]
    have hr' := (hleft c (ballXCollide (ball.mirror wall) wall.left deltaTime c').2).1.trans hl
    rw [if_pos hr']
    exact ⟨hleft _ _, rfl⟩
  · rw [if_neg hl]
    by_cases hr : isValidToi (ballXCollide ball wall.right deltaTime
        (ballXCollide ball wall.left deltaTime c).2).2.toi = true
    · have hl' := (hright (ballXCollide ball wall.left deltaTime c).2 c').1.trans hr
      rw [if_pos hr, if_pos hl']
      exact ⟨hright _ _, rfl⟩
    · have hl' := (hright (ballXCollide ball wall.left deltaTime c).2 c').1
      have hr' := (hleft c (ballXCollide (ball.mirror wall) wall.left deltaTime c').2).1
      rw [if_neg hr, if_neg (by rwa [hl']), if_neg (by rwa [hr'])]
      refine ⟨⟨hr'.trans ?_, fun hvalid => absurd hvalid hr⟩, rfl⟩
      rw [Bool.eq_false_iff.mpr hl, Bool.eq_false_iff.mpr hr]

theorem ballWallCollide_mirror (wall : Wall) (ball : GameObj F) (deltaTime : Int)
    (c c' : CollInfo F) :
    Mirrors wall (ballWallCollide wall ball deltaTime c).2
      (ballWallCollide wall (ball.mirror wall) deltaTime c').2 := by
  refine (getFirstCollision_mirror ?_ _ _).2
  exact .cons (ballYCollide_mirror _ _ _ _ _) (.cons (ballYCollide_mirror _ _ _ _ _) .nil)

end Goals

end CPong
