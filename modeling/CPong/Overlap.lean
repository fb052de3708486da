import CPong.RestingBox

/-!
# Boxes with a point in common

`AABB_is_overlapping` against the geometry of closed boxes, and against the contacts that
`AABB_collide` reports.
-/

namespace CPong

set_option autoImplicit false

section Boxes
variable {F : Type} [Field F] [LinearOrder F]

/-- The points of the plane that the box covers, its edges included. -/
def closedBox (obj : GameObj F) : Set (F × F) :=
  let bounds := aabbGetBoundaries obj
  Set.Icc bounds.left bounds.right ×ˢ Set.Icc bounds.down bounds.up

def movedBy (v : Vector F) (obj : GameObj F) : GameObj F := { obj with pos := vectorAdd obj.pos v }

/-- The function answers that the boxes are apart. -/
theorem aabbIsOverlapping_iff (a b : GameObj F) : aabbIsOverlapping a b = true ↔ ¬ Touch a b := by
  unfold aabbIsOverlapping Touch MeetsX MeetsY
  dsimp only
  split_ifs with hdown hup hleft hright
  · simp [hdown]
  · simp [hup]
  · simp [hleft]
  · simp [hright]
  · simp [hdown, hup, hleft, hright]

theorem aabbIsOverlapping_eq_false (a b : GameObj F) :
    aabbIsOverlapping a b = false ↔ Touch a b := by
  rw [← Bool.not_eq_true, aabbIsOverlapping_iff, not_not]

theorem touch_comm (a b : GameObj F) : Touch a b ↔ Touch b a := by
  unfold Touch
  rw [meetsX_iff, meetsY_iff, meetsX_iff, meetsY_iff]
  exact and_congr and_comm and_comm

variable [IsStrictOrderedRing F]

theorem touch_movedBy (v : Vector F) (a b : GameObj F) :
    Touch (movedBy v a) (movedBy v b) ↔ Touch a b := by
  unfold Touch
  rw [meetsX_iff, meetsY_iff, meetsX_iff, meetsY_iff]
  simp only [movedBy, vectorAdd, add_sub_right_comm, add_right_comm _ v.x,
    add_right_comm _ v.y, add_le_add_iff_right]

variable {a b : GameObj F}

theorem Sized.boundaries (h : Sized a) :
    (aabbGetBoundaries a).left ≤ (aabbGetBoundaries a).right ∧
      (aabbGetBoundaries a).down ≤ (aabbGetBoundaries a).up := by
  obtain ⟨hx, hy⟩ := h
  unfold aabbGetBoundaries
  constructor
  · linarith
  · linarith

/-- Closed boxes have a point in common if they have a coordinate in common on each axis. -/
theorem touch_iff_inter (ha : Sized a) (hb : Sized b) :
    Touch a b ↔ (closedBox a ∩ closedBox b).Nonempty := by
  obtain ⟨hax, hay⟩ := ha.boundaries
  obtain ⟨hbx, hby⟩ := hb.boundaries
  unfold closedBox Touch MeetsX MeetsY
  rw [Set.prod_inter_prod, Set.prod_nonempty_iff, Set.Icc_inter_Icc, Set.Icc_inter_Icc,
    Set.nonempty_Icc, Set.nonempty_Icc, sup_le_iff, le_inf_iff, le_inf_iff, sup_le_iff, le_inf_iff,
    le_inf_iff]
  simp only [not_or, not_lt, gt_iff_lt, hax, hay, hbx, hby, true_and, and_true]
  exact and_congr and_comm and_comm

end Boxes

section Contact
variable {F : Type} [Field F] [LinearOrder F] [IsStrictOrderedRing F] {obj1 obj2 : GameObj F}
  {deltaTime : Int}

omit [IsStrictOrderedRing F] in
theorem dirOf_cases (v : F) : (dirOf v : F) = 1 ∨ (dirOf v : F) = -1 := by
  unfold dirOf
  split
  · exact Or.inl (by norm_num)
  · exact Or.inr (by norm_num)

/-- A side of length `size` with one end at a face of `lo` to `hi` has a point in common with
it. -/
theorem meets_at_face {lo hi size face dir : F} (hdir : dir = 1 ∨ dir = -1) (hsize : 0 ≤ size)
    (hle : lo ≤ hi) (hface : face = lo ∨ face = hi) :
    lo ≤ face - dir * size / 2 + size / 2 ∧ face - dir * size / 2 - size / 2 ≤ hi := by
  have hlo : lo ≤ face := by
    rcases hface with rfl | rfl
    · exact le_rfl
    · exact hle
  have hhi : face ≤ hi := by
    rcases hface with rfl | rfl
    · exact hle
    · exact le_rfl
  rcases hdir with rfl | rfl
  · constructor <;> linarith
  · constructor <;> linarith

variable [FloorRing F] {c : CollInfo F}

/-- A box whose leading side is at a vertical face has an `x` in common with it. -/
theorem HitX.meetsX {x : Int} (h : HitX obj1 deltaTime x c) (hx : x ∈ xFaces obj2)
    (h1 : Sized obj1) (h2 : Sized obj2) (hrest : Resting obj2) :
    MeetsX { obj1 with pos := c.pos } obj2 := by
  have hface := (mem_xFaces hrest x).mp ⟨x, hx, rfl⟩
  have hmeets := meets_at_face (dirOf_cases obj1.velocity.x) h1.1 h2.boundaries.1 hface
  rw [meetsX_iff]
  dsimp only
  rw [h.reach]
  exact hmeets

theorem HitY.meetsY {y : Int} (h : HitY obj1 deltaTime y c) (hy : y ∈ yFaces obj2)
    (h1 : Sized obj1) (h2 : Sized obj2) (hrest : Resting obj2) :
    MeetsY { obj1 with pos := c.pos } obj2 := by
  have hface := (mem_yFaces hrest y).mp ⟨y, hy, rfl⟩
  have hmeets := meets_at_face (dirOf_cases obj1.velocity.y) h1.2 h2.boundaries.2 hface
  rw [meetsY_iff]
  dsimp only
  rw [h.reach]
  exact hmeets

variable (h1 : Sized obj1) (h2 : Sized obj2) (hrest : Resting obj2)
include h1 h2 hrest

theorem XHit.touch {τ : F} (h : XHit obj1 obj2 deltaTime τ) :
    Touch { obj1 with pos := (xFaceHit obj1 obj2 deltaTime).2.pos } obj2 := by
  obtain ⟨hhit, hmeets⟩ := h
  obtain ⟨x, hx, hreach⟩ := xFaceHit_hit hhit
  rw [partWay_of_still _ hrest.still] at hmeets
  exact ⟨hreach.meetsX hx h1 h2 hrest, hmeets⟩

theorem YHit.touch {τ : F} (h : YHit obj1 obj2 deltaTime τ) :
    Touch { obj1 with pos := (yFaceHit obj1 obj2 deltaTime).2.pos } obj2 := by
  obtain ⟨hhit, hmeets⟩ := h
  obtain ⟨y, hy, hreach⟩ := yFaceHit_hit hhit
  rw [partWay_of_still _ hrest.still] at hmeets
  exact ⟨hmeets, hreach.meetsY hy h1 h2 hrest⟩

/-- Where `AABB_collide` reports a contact with a box at rest, the boxes touch. -/
theorem aabbCollide_touch (h : (aabbCollide obj1 obj2 deltaTime c).1 = true) :
    Touch { obj1 with pos := (aabbCollide obj1 obj2 deltaTime c).2.pos } obj2 := by
  rw [aabbCollide_eq] at h ⊢
  split_ifs at h ⊢ with hboth hx hy
  · obtain ⟨hx, hy⟩ := hboth
    rw [getFirstCollision_pair hx.valid hy.valid]
    dsimp only
    split_ifs
    · exact hx.touch h1 h2 hrest
    · exact hy.touch h1 h2 hrest
  · exact hx.touch h1 h2 hrest
  · exact hy.touch h1 h2 hrest

end Contact

section Inverted
variable {F : Type} [Field F] [LinearOrder F] [IsStrictOrderedRing F] [FloorRing F]

/-- `AABB_is_overlapping` has every verdict the wrong way round, also at each contact that the
swept test reports. Its verdicts are symmetric and do not depend on the place of the pair. -/
theorem aabbIsOverlapping_inverted {a b : GameObj F} (ha : Sized a) (hb : Sized b) :
    ¬ (aabbIsOverlapping a b = true ↔ (closedBox a ∩ closedBox b).Nonempty) ∧
      aabbIsOverlapping a b = aabbIsOverlapping b a ∧
      (∀ v, aabbIsOverlapping (movedBy v a) (movedBy v b) = aabbIsOverlapping a b) ∧
      (Resting b → ∀ (deltaTime : Int) (c : CollInfo F),
        (aabbCollide a b deltaTime c).1 = true →
          aabbIsOverlapping { a with pos := (aabbCollide a b deltaTime c).2.pos }
            (partWay b deltaTime (aabbCollide a b deltaTime c).2.toi) = false) := by
  refine ⟨?_, ?_, ?_, ?_⟩
  · rw [aabbIsOverlapping_iff, touch_iff_inter ha hb]
    exact not_iff_self
  · rw [Bool.eq_iff_iff, aabbIsOverlapping_iff, aabbIsOverlapping_iff, touch_comm]
  · intro v
    rw [Bool.eq_iff_iff, aabbIsOverlapping_iff, aabbIsOverlapping_iff, touch_movedBy]
  · intro hrest deltaTime c hhit
    rw [aabbIsOverlapping_eq_false, partWay_of_still _ hrest.still]
    exact aabbCollide_touch ha hb hrest hhit

end Inverted

def squareAt (x y : ℚ) : GameObj ℚ := ⟨0, ⟨x, y⟩, ⟨0, 0⟩, ⟨10, 10⟩⟩

/-- A box does not overlap with itself, and does with one far away. -/
theorem aabbIsOverlapping_itself :
    Sized (squareAt 0 0) ∧ (0, 0) ∈ closedBox (squareAt 0 0) ∩ closedBox (squareAt 0 0) ∧
      aabbIsOverlapping (squareAt 0 0) (squareAt 0 0) = false ∧
      Sized (squareAt 50 0) ∧ ¬ (closedBox (squareAt 0 0) ∩ closedBox (squareAt 50 0)).Nonempty ∧
      aabbIsOverlapping (squareAt 0 0) (squareAt 50 0) = true := by
  have hsized : Sized (squareAt 0 0) := by decide +kernel
  have hfar : Sized (squareAt 50 0) := by decide +kernel
  have happear : ¬ Touch (squareAt 0 0) (squareAt 50 0) := by decide +kernel
  rw [touch_iff_inter hsized hfar] at happear
  have hmem : ((0, 0) : ℚ × ℚ) ∈ closedBox (squareAt 0 0) := by
    simp only [closedBox, aabbGetBoundaries, squareAt, Set.mem_prod, Set.mem_Icc]
    norm_num
  exact ⟨hsized, ⟨hmem, hmem⟩, by decide +kernel, hfar, happear, by decide +kernel⟩

theorem aabbIsOverlapping_inverted_headOnBall :
    aabbIsOverlapping { headOnBall with
        pos := (aabbCollide headOnBall stillPaddle 16 .zero).2.pos }
      (partWay stillPaddle 16 (aabbCollide headOnBall stillPaddle 16 .zero).2.toi) = false := by
  have hinverted := aabbIsOverlapping_inverted (a := headOnBall) (b := stillPaddle)
    (by decide +kernel) (by decide +kernel)
  exact hinverted.2.2.2 resting_stillPaddle 16 .zero (by decide +kernel)

end CPong
