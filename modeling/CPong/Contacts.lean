import CPong.BoxTest
import Mathlib.Order.Bounds.Basic

/-!
# The contacts that the box test reports

When the leading sides of the first box come to the faces of the second as they stand when the
tick begins, and which of these two times `AABB_collide` reports.
-/

namespace CPong

set_option autoImplicit false

section Faces
variable {F : Type} [Field F] [LinearOrder F] [FloorRing F] (obj1 obj2 : GameObj F)
  (deltaTime : Int)

/-- After the part `τ` of the tick the leading vertical side of the first box is at a vertical
face of the second, cut to a whole number. -/
def ReachesX (τ : F) : Prop :=
  (0 < τ ∧ τ ≤ 1) ∧ obj1.velocity.x ≠ 0 ∧
    ∃ x ∈ xFaces obj2, (partWay obj1 deltaTime τ).pos.x = contactX obj1 x

def ReachesY (τ : F) : Prop :=
  (0 < τ ∧ τ ≤ 1) ∧ obj1.velocity.y ≠ 0 ∧
    ∃ y ∈ yFaces obj2, (partWay obj1 deltaTime τ).pos.y = contactY obj1 y

def FirstX (τ : F) : Prop := IsLeast {τ | ReachesX obj1 obj2 deltaTime τ} τ

def FirstY (τ : F) : Prop := IsLeast {τ | ReachesY obj1 obj2 deltaTime τ} τ

/-- A vertical face is first reached at `τ`, and the boxes then have a `y` in common, the second
box taken as it stands after the part `t` of the tick. -/
def CandidateX (t τ : F) : Prop :=
  FirstX obj1 obj2 deltaTime τ ∧ MeetsY (partWay obj1 deltaTime τ) (partWay obj2 deltaTime t)

def CandidateY (t τ : F) : Prop :=
  FirstY obj1 obj2 deltaTime τ ∧ MeetsX (partWay obj1 deltaTime τ) (partWay obj2 deltaTime t)

/-- The vertical face is what the test reports: no horizontal one comes before it. -/
def ReportsX (t τ : F) : Prop :=
  CandidateX obj1 obj2 deltaTime t τ ∧ ∀ τ', CandidateY obj1 obj2 deltaTime t τ' → τ ≤ τ'

def ReportsY (t τ : F) : Prop :=
  CandidateY obj1 obj2 deltaTime t τ ∧ ∀ τ', CandidateX obj1 obj2 deltaTime t τ' → τ < τ'

def xContact (τ : F) : CollInfo F :=
  ⟨τ, ⟨-dirOf obj1.velocity.x, 0⟩, (partWay obj1 deltaTime τ).pos⟩

def yContact (τ : F) : CollInfo F :=
  ⟨τ, ⟨0, -dirOf obj1.velocity.y⟩, (partWay obj1 deltaTime τ).pos⟩

variable {obj1 obj2 deltaTime} {τ t : F}

theorem CandidateX.of_still (h : CandidateX obj1 obj2 deltaTime t τ) (hv : obj2.velocity.y = 0)
    (t' : F) : CandidateX obj1 obj2 deltaTime t' τ :=
  ⟨h.1, (meetsY_of_still hv t t').mp h.2⟩

theorem CandidateY.of_still (h : CandidateY obj1 obj2 deltaTime t τ) (hv : obj2.velocity.x = 0)
    (t' : F) : CandidateY obj1 obj2 deltaTime t' τ :=
  ⟨h.1, (meetsX_of_still hv t t').mp h.2⟩

theorem reachesY_swapAxes : ReachesY obj1 obj2 deltaTime τ ↔
    ReachesX obj1.swapAxes obj2.swapAxes deltaTime τ := by
  have hfaces (y : Int) : y ∈ yFaces obj2 ↔ y ∈ xFaces obj2.swapAxes := by
    simp only [xFaces, yFaces, List.mem_pair]
    exact or_comm
  simp only [ReachesY, ReachesX, hfaces]
  exact Iff.rfl

theorem firstY_swapAxes : FirstY obj1 obj2 deltaTime τ ↔
    FirstX obj1.swapAxes obj2.swapAxes deltaTime τ := by
  simp only [FirstY, FirstX, reachesY_swapAxes]

theorem candidateY_swapAxes : CandidateY obj1 obj2 deltaTime t τ ↔
    CandidateX obj1.swapAxes obj2.swapAxes deltaTime t τ :=
  and_congr firstY_swapAxes Iff.rfl

variable [IsStrictOrderedRing F]

omit [FloorRing F] in
theorem toi_of_reach {p v t c : F} (hv : v ≠ 0) (ht : t ≠ 0) (h : p + v * (τ * t) = c) :
    (c - p) / (v * t) = τ := by
  rw [← h, div_eq_iff (mul_ne_zero hv ht)]
  ring

theorem xFaceHit_of_reaches (hdt : 0 < deltaTime) (h : ReachesX obj1 obj2 deltaTime τ) :
    (xFaceHit obj1 obj2 deltaTime).1 = true ∧ (xFaceHit obj1 obj2 deltaTime).2.toi ≤ τ := by
  obtain ⟨hτ, hv, x, hx, hreach⟩ := h
  have ht : (deltaTime : F) ≠ 0 := by exact_mod_cast hdt.ne'
  have htoi : (ballXCollide obj1 x deltaTime .zero).2.toi = τ := by
    rw [ballXCollide_toi]
    apply toi_of_reach hv ht
    rw [← hreach, partWay_pos]
  have hvalid : isValidToi (ballXCollide obj1 x deltaTime .zero).2.toi = true := by
    rw [htoi]
    exact isValidToi_iff.mpr hτ
  rw [← htoi]
  apply getFirstCollision_le _ hvalid
  simp only [xFaces, List.mem_cons, List.not_mem_nil, or_false] at hx ⊢
  rcases hx with rfl | rfl
  · exact Or.inl rfl
  · exact Or.inr rfl

/-- The vertical faces that the test finds are reached first at its time. -/
theorem xFaceHit_first (hdt : 0 < deltaTime) (h : (xFaceHit obj1 obj2 deltaTime).1 = true) :
    FirstX obj1 obj2 deltaTime (xFaceHit obj1 obj2 deltaTime).2.toi := by
  obtain ⟨x, hx, hhit⟩ := xFaceHit_hit h
  refine ⟨⟨hhit.toi, hhit.moving, x, hx, ?_⟩, fun τ hτ => (xFaceHit_of_reaches hdt hτ).2⟩
  rw [partWay_pos, ← hhit.reach, hhit.pos]

theorem yFaceHit_first (hdt : 0 < deltaTime) (h : (yFaceHit obj1 obj2 deltaTime).1 = true) :
    FirstY obj1 obj2 deltaTime (yFaceHit obj1 obj2 deltaTime).2.toi := by
  rw [yFaceHit_swapAxes] at h ⊢
  exact firstY_swapAxes.mpr (xFaceHit_first hdt h)

theorem FirstX.found (hdt : 0 < deltaTime) (h : FirstX obj1 obj2 deltaTime τ) :
    (xFaceHit obj1 obj2 deltaTime).1 = true ∧ (xFaceHit obj1 obj2 deltaTime).2.toi = τ := by
  have hhit := (xFaceHit_of_reaches hdt h.1).1
  exact ⟨hhit, IsLeast.unique (xFaceHit_first hdt hhit) h⟩

theorem FirstY.found (hdt : 0 < deltaTime) (h : FirstY obj1 obj2 deltaTime τ) :
    (yFaceHit obj1 obj2 deltaTime).1 = true ∧ (yFaceHit obj1 obj2 deltaTime).2.toi = τ := by
  rw [yFaceHit_swapAxes]
  exact (firstY_swapAxes.mp h).found hdt

theorem FirstX.hit (hdt : 0 < deltaTime) (h : FirstX obj1 obj2 deltaTime τ) :
    (xFaceHit obj1 obj2 deltaTime).2 = xContact obj1 deltaTime τ := by
  obtain ⟨hhit, htoi⟩ := h.found hdt
  obtain ⟨x, -, hx⟩ := xFaceHit_hit hhit
  have hpos := hx.pos
  have hnormal := hx.normal
  rw [htoi, ← partWay_pos] at hpos
  exact CollInfo.ext htoi hnormal hpos

theorem FirstY.hit (hdt : 0 < deltaTime) (h : FirstY obj1 obj2 deltaTime τ) :
    (yFaceHit obj1 obj2 deltaTime).2 = yContact obj1 deltaTime τ := by
  rw [yFaceHit_swapAxes, (firstY_swapAxes.mp h).hit hdt]
  rfl

theorem FirstX.xHit_iff (hdt : 0 < deltaTime) (h : FirstX obj1 obj2 deltaTime τ) (t : F) :
    XHit obj1 obj2 deltaTime t ↔ CandidateX obj1 obj2 deltaTime t τ := by
  unfold XHit
  rw [(h.found hdt).1, h.hit hdt]
  exact (and_iff_right rfl).trans (and_iff_right h).symm

theorem FirstY.yHit_iff (hdt : 0 < deltaTime) (h : FirstY obj1 obj2 deltaTime τ) (t : F) :
    YHit obj1 obj2 deltaTime t ↔ CandidateY obj1 obj2 deltaTime t τ := by
  unfold YHit
  rw [(h.found hdt).1, h.hit hdt]
  exact (and_iff_right rfl).trans (and_iff_right h).symm

theorem xHit_iff (hdt : 0 < deltaTime) (t : F) :
    XHit obj1 obj2 deltaTime t ↔ ∃ τ, CandidateX obj1 obj2 deltaTime t τ := by
  constructor
  · intro h
    have hfirst := xFaceHit_first hdt h.1
    exact ⟨_, (hfirst.xHit_iff hdt t).mp h⟩
  · rintro ⟨τ, hτ⟩
    exact (FirstX.xHit_iff hdt hτ.1 t).mpr hτ

theorem yHit_iff (hdt : 0 < deltaTime) (t : F) :
    YHit obj1 obj2 deltaTime t ↔ ∃ τ, CandidateY obj1 obj2 deltaTime t τ := by
  constructor
  · intro h
    have hfirst := yFaceHit_first hdt h.1
    exact ⟨_, (hfirst.yHit_iff hdt t).mp h⟩
  · rintro ⟨τ, hτ⟩
    exact (FirstY.yHit_iff hdt hτ.1 t).mpr hτ

end Faces

section Learns
variable {F : Type}

/-- What the caller learns: nothing, or a collision. -/
def answer (r : Bool × CollInfo F) : Option (CollInfo F) := if r.1 then some r.2 else none

theorem answer_eq_some {r : Bool × CollInfo F} {c : CollInfo F} :
    answer r = some c ↔ r = (true, c) := by
  obtain ⟨hit, found⟩ := r
  cases hit with
  | true => simp [answer]
  | false => simp [answer]

theorem answer_eq_none {r : Bool × CollInfo F} : answer r = none ↔ r.1 = false := by
  obtain ⟨hit, found⟩ := r
  cases hit with
  | true => simp [answer]
  | false => simp [answer]

end Learns

section Answer
variable {F : Type} [Field F] [LinearOrder F] [FloorRing F] (obj1 obj2 : GameObj F)
  (deltaTime : Int)

/-- The answer when the second box is taken as it stands after the part `t` of the tick. -/
def answerAt (t : F) : Option (CollInfo F) :=
  let xColl := (xFaceHit obj1 obj2 deltaTime).2
  let yColl := (yFaceHit obj1 obj2 deltaTime).2
  if XHit obj1 obj2 deltaTime t ∧ (YHit obj1 obj2 deltaTime t → xColl.toi ≤ yColl.toi) then
    some xColl
  else if YHit obj1 obj2 deltaTime t then some yColl
  else none

variable [IsStrictOrderedRing F] {obj1 obj2 deltaTime} {τ : F}

/-- Two valid collisions: the first is kept unless the second is earlier. -/
theorem getFirstCollision_pair {x y : CollInfo F} (hx : isValidToi x.toi = true)
    (hy : isValidToi y.toi = true) (r : CollInfo F) :
    getFirstCollision [x, y] r = (true, if x.toi ≤ y.toi then x else y) := by
  have hx99 : x.toi < 99 := (isValidToi_iff.mp hx).2.trans_lt (by norm_num)
  have hy99 : y.toi < 99 := (isValidToi_iff.mp hy).2.trans_lt (by norm_num)
  have hfirst : keepEarlier { r with toi := 99 } x = x := if_pos ⟨hx, hx99⟩
  simp only [getFirstCollision, List.foldl_cons, List.foldl_nil, hfirst]
  by_cases hle : x.toi ≤ y.toi
  · have hkeep : keepEarlier x y = x := if_neg fun h => absurd h.2 hle.not_gt
    rw [hkeep, if_pos hle, decide_eq_true hx99.ne]
  · have hkeep : keepEarlier x y = y := if_pos ⟨hy, not_le.mp hle⟩
    rw [hkeep, if_neg hle, decide_eq_true hy99.ne]

theorem answer_aabbCollide (obj1 obj2 : GameObj F) (deltaTime : Int) (c : CollInfo F) :
    answer (aabbCollide obj1 obj2 deltaTime c) = answerAt obj1 obj2 deltaTime c.toi := by
  rw [aabbCollide_eq]
  by_cases hx : XHit obj1 obj2 deltaTime c.toi
  · by_cases hy : YHit obj1 obj2 deltaTime c.toi
    · have hpair := getFirstCollision_pair hx.valid hy.valid c
      rw [if_pos ⟨hx, hy⟩, hpair]
      by_cases hle : (xFaceHit obj1 obj2 deltaTime).2.toi ≤ (yFaceHit obj1 obj2 deltaTime).2.toi
      · simp [answer, answerAt, hx, hle]
      · simp [answer, answerAt, hy, hle]
    · simp [answer, answerAt, hx, hy]
  · by_cases hy : YHit obj1 obj2 deltaTime c.toi
    · simp [answer, answerAt, hx, hy]
    · simp [answer, answerAt, hx, hy]

theorem ReportsX.answer (hdt : 0 < deltaTime) {t : F} (h : ReportsX obj1 obj2 deltaTime t τ) :
    answerAt obj1 obj2 deltaTime t = some (xContact obj1 deltaTime τ) := by
  have hfirst : FirstX obj1 obj2 deltaTime τ := h.1.1
  have hx : XHit obj1 obj2 deltaTime t := (hfirst.xHit_iff hdt t).mpr h.1
  have hearlier : YHit obj1 obj2 deltaTime t →
      (xFaceHit obj1 obj2 deltaTime).2.toi ≤ (yFaceHit obj1 obj2 deltaTime).2.toi := by
    intro hy
    obtain ⟨τ', hτ'⟩ := (yHit_iff hdt t).mp hy
    have hfirst' : FirstY obj1 obj2 deltaTime τ' := hτ'.1
    rw [(hfirst.found hdt).2, (hfirst'.found hdt).2]
    exact h.2 τ' hτ'
  rw [answerAt, if_pos ⟨hx, hearlier⟩, hfirst.hit hdt]

theorem ReportsY.answer (hdt : 0 < deltaTime) {t : F} (h : ReportsY obj1 obj2 deltaTime t τ) :
    answerAt obj1 obj2 deltaTime t = some (yContact obj1 deltaTime τ) := by
  have hfirst : FirstY obj1 obj2 deltaTime τ := h.1.1
  have hy : YHit obj1 obj2 deltaTime t := (hfirst.yHit_iff hdt t).mpr h.1
  have hlater : ¬ (XHit obj1 obj2 deltaTime t ∧ (YHit obj1 obj2 deltaTime t →
      (xFaceHit obj1 obj2 deltaTime).2.toi ≤ (yFaceHit obj1 obj2 deltaTime).2.toi)) := by
    rintro ⟨hx, hle⟩
    obtain ⟨τ', hτ'⟩ := (xHit_iff hdt t).mp hx
    have hfirst' : FirstX obj1 obj2 deltaTime τ' := hτ'.1
    have hle := hle hy
    rw [(hfirst.found hdt).2, (hfirst'.found hdt).2] at hle
    exact hle.not_gt (h.2 τ' hτ')
  rw [answerAt, if_neg hlater, if_pos hy, hfirst.hit hdt]

theorem answerAt_eq_none (hdt : 0 < deltaTime) {t : F}
    (hx : ∀ τ, ¬ CandidateX obj1 obj2 deltaTime t τ)
    (hy : ∀ τ, ¬ CandidateY obj1 obj2 deltaTime t τ) : answerAt obj1 obj2 deltaTime t = none := by
  have hX : ¬ XHit obj1 obj2 deltaTime t := fun h =>
    let ⟨τ, hτ⟩ := (xHit_iff hdt t).mp h
    hx τ hτ
  have hY : ¬ YHit obj1 obj2 deltaTime t := fun h =>
    let ⟨τ, hτ⟩ := (yHit_iff hdt t).mp h
    hy τ hτ
  rw [answerAt, if_neg fun h => hX h.1, if_neg hY]

omit [IsStrictOrderedRing F] in
theorem reports_cases (obj1 obj2 : GameObj F) (deltaTime : Int) (t : F) :
    (∃ τ, ReportsX obj1 obj2 deltaTime t τ) ∨ (∃ τ, ReportsY obj1 obj2 deltaTime t τ) ∨
      (∀ τ, ¬ CandidateX obj1 obj2 deltaTime t τ) ∧
        ∀ τ, ¬ CandidateY obj1 obj2 deltaTime t τ := by
  by_cases hx : ∃ τ, CandidateX obj1 obj2 deltaTime t τ
  · obtain ⟨τ, hτ⟩ := hx
    by_cases hy : ∃ τ', CandidateY obj1 obj2 deltaTime t τ' ∧ τ' < τ
    · obtain ⟨τ', hτ', hlt⟩ := hy
      refine Or.inr (Or.inl ⟨τ', hτ', fun τ'' hτ'' => ?_⟩)
      rwa [IsLeast.unique hτ''.1 hτ.1]
    · exact Or.inl ⟨τ, hτ, fun τ' hτ' => not_lt.mp fun hlt => hy ⟨τ', hτ', hlt⟩⟩
  · by_cases hy : ∃ τ, CandidateY obj1 obj2 deltaTime t τ
    · obtain ⟨τ, hτ⟩ := hy
      exact Or.inr (Or.inl ⟨τ, hτ, fun τ' hτ' => absurd ⟨τ', hτ'⟩ hx⟩)
    · exact Or.inr (Or.inr ⟨not_exists.mp hx, not_exists.mp hy⟩)

/-- How a call of `AABB_collide` ends. -/
inductive BoxOutcome (obj1 obj2 : GameObj F) (deltaTime : Int) (t : F) : Bool × CollInfo F → Prop
  | vertical (τ : F) (h : ReportsX obj1 obj2 deltaTime t τ) :
      BoxOutcome obj1 obj2 deltaTime t (true, xContact obj1 deltaTime τ)
  | horizontal (τ : F) (h : ReportsY obj1 obj2 deltaTime t τ) :
      BoxOutcome obj1 obj2 deltaTime t (true, yContact obj1 deltaTime τ)
  | none (hx : ∀ τ, ¬ CandidateX obj1 obj2 deltaTime t τ)
      (hy : ∀ τ, ¬ CandidateY obj1 obj2 deltaTime t τ) (c : CollInfo F) :
      BoxOutcome obj1 obj2 deltaTime t (false, c)

variable (obj1 obj2) in
theorem aabbCollide_outcome (hdt : 0 < deltaTime) (c : CollInfo F) :
    BoxOutcome obj1 obj2 deltaTime c.toi (aabbCollide obj1 obj2 deltaTime c) := by
  have hanswer := answer_aabbCollide obj1 obj2 deltaTime c
  rcases reports_cases obj1 obj2 deltaTime c.toi with ⟨τ, hτ⟩ | ⟨τ, hτ⟩ | ⟨hx, hy⟩
  · rw [hτ.answer hdt, answer_eq_some] at hanswer
    rw [hanswer]
    exact .vertical τ hτ
  · rw [hτ.answer hdt, answer_eq_some] at hanswer
    rw [hanswer]
    exact .horizontal τ hτ
  · rw [answerAt_eq_none hdt hx hy, answer_eq_none] at hanswer
    have hpair : aabbCollide obj1 obj2 deltaTime c =
        (false, (aabbCollide obj1 obj2 deltaTime c).2) := Prod.ext hanswer rfl
    rw [hpair]
    exact .none hx hy _

end Answer

end CPong
