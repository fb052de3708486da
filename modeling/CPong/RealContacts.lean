import CPong.Contacts

/-!
# When the reported contacts are real

`AABB_collide` takes the second box at the part of the tick that `*coll_info` holds on entry,
and its faces at their place when the tick begins, cut to whole numbers.
-/

namespace CPong

set_option autoImplicit false

section Moving
variable {F : Type} [Field F] [LinearOrder F] [IsStrictOrderedRing F] {d h k : F}

/-- What moves comes within any distance at some time, and is beyond it from some time on. -/
theorem moving_arrives (hk : k ≠ 0) (hh : 0 ≤ h) : ∃ t, |d + k * t| ≤ h := by
  refine ⟨-d / k, ?_⟩
  rw [mul_div_cancel₀ _ hk, add_neg_cancel, abs_zero]
  exact hh

theorem moving_departs (hk : k ≠ 0) : ∃ B, ∀ t, B < t → ¬ |d + k * t| ≤ h := by
  have hpos : 0 < |k| := abs_pos.mpr hk
  refine ⟨max 0 ((h + |d|) / |k|), ?_⟩
  intro t ht hle
  obtain ⟨h0, hB⟩ := max_lt_iff.mp ht
  have hway : h + |d| < |k * t| := by
    rw [abs_mul, abs_of_pos h0, mul_comm]
    exact (div_lt_iff₀ hpos).mp hB
  have htriangle : |k * t| ≤ |d + k * t| + |d| := by
    calc |k * t| = |d + k * t - d| := by rw [add_sub_cancel_left]
      _ ≤ |d + k * t| + |d| := abs_sub _ _
  linarith

variable {a b : GameObj F} {deltaTime : Int} {t : F}

theorem meetsY_partWay : MeetsY a (partWay b deltaTime t) ↔
    |b.pos.y - a.pos.y + b.velocity.y * deltaTime * t| ≤ (a.size.y + b.size.y) / 2 := by
  rw [meetsY_iff, abs_le, partWay_pos, partWay_size]
  constructor
  · rintro ⟨hl, hr⟩
    constructor <;> linarith
  · rintro ⟨hl, hr⟩
    constructor <;> linarith

end Moving

section Real
variable {F : Type} [Field F] [LinearOrder F] [FloorRing F] (obj1 obj2 : GameObj F)
  (deltaTime : Int)

/-- The boxes touch after the part `r.toi` of the tick, and the first one is at `r.pos` then. -/
structure RealContact (r : CollInfo F) : Prop where
  toi : 0 < r.toi ∧ r.toi ≤ 1
  touch : Touch (partWay obj1 deltaTime r.toi) (partWay obj2 deltaTime r.toi)
  pos : r.pos = (partWay obj1 deltaTime r.toi).pos

/-- Every contact that is reported is real, and the answer is the same whatever `*coll_info`
holds on entry. -/
structure ReportsReal : Prop where
  real : ∀ c r, answer (aabbCollide obj1 obj2 deltaTime c) = some r →
    RealContact obj1 obj2 deltaTime r
  same : ∀ c c', answer (aabbCollide obj1 obj2 deltaTime c) =
    answer (aabbCollide obj1 obj2 deltaTime c')

/-- The second box moves across a face that is reached only if a face of the other direction,
along which it does not move, is reported before. -/
structure Settles : Prop where
  x : ∀ τ, FirstX obj1 obj2 deltaTime τ → obj2.velocity.y ≠ 0 →
    obj2.velocity.x = 0 ∧ ∃ τ' < τ, CandidateY obj1 obj2 deltaTime 0 τ'
  y : ∀ τ, FirstY obj1 obj2 deltaTime τ → obj2.velocity.x ≠ 0 →
    obj2.velocity.y = 0 ∧ ∃ τ' ≤ τ, CandidateX obj1 obj2 deltaTime 0 τ'

/-- The face as it is tested, not moved and cut to a whole number, belongs to the second box
where that is at the time of the contact. -/
structure OnFace : Prop where
  x : ∀ τ, ReportsX obj1 obj2 deltaTime 0 τ →
    MeetsX (partWay obj1 deltaTime τ) (partWay obj2 deltaTime τ)
  y : ∀ τ, ReportsY obj1 obj2 deltaTime 0 τ →
    MeetsY (partWay obj1 deltaTime τ) (partWay obj2 deltaTime τ)

variable {obj1 obj2 deltaTime} {t t' τ : F}

theorem Settles.reportsX (h : Settles obj1 obj2 deltaTime) (hr : ReportsX obj1 obj2 deltaTime t τ)
    (t' : F) : ReportsX obj1 obj2 deltaTime t' τ := by
  by_cases hw : obj2.velocity.y = 0
  · refine ⟨hr.1.of_still hw t', fun τ' hτ' => ?_⟩
    by_cases hu : obj2.velocity.x = 0
    · exact hr.2 τ' (hτ'.of_still hu t)
    · obtain ⟨-, τ'', hle, hτ''⟩ := h.y τ' hτ'.1 hu
      rw [IsLeast.unique hr.1.1 hτ''.1]
      exact hle
  · obtain ⟨hu, τ', hlt, hτ'⟩ := h.x τ hr.1.1 hw
    exact absurd (hr.2 τ' (hτ'.of_still hu t)) (not_le.mpr hlt)

theorem Settles.reportsY (h : Settles obj1 obj2 deltaTime) (hr : ReportsY obj1 obj2 deltaTime t τ)
    (t' : F) : ReportsY obj1 obj2 deltaTime t' τ := by
  by_cases hu : obj2.velocity.x = 0
  · refine ⟨hr.1.of_still hu t', fun τ' hτ' => ?_⟩
    by_cases hw : obj2.velocity.y = 0
    · exact hr.2 τ' (hτ'.of_still hw t)
    · obtain ⟨-, τ'', hlt, hτ''⟩ := h.x τ' hτ'.1 hw
      rw [IsLeast.unique hr.1.1 hτ''.1]
      exact hlt
  · obtain ⟨hw, τ', hle, hτ'⟩ := h.y τ hr.1.1 hu
    exact absurd (hr.2 τ' (hτ'.of_still hw t)) (not_lt.mpr hle)

theorem Settles.real_iff_x (h : Settles obj1 obj2 deltaTime)
    (hr : ReportsX obj1 obj2 deltaTime 0 τ) :
    RealContact obj1 obj2 deltaTime (xContact obj1 deltaTime τ) ↔
      MeetsX (partWay obj1 deltaTime τ) (partWay obj2 deltaTime τ) := by
  have hmeets := (h.reportsX hr τ).1.2
  exact ⟨fun hreal => hreal.touch.1, fun hx => ⟨hr.1.1.1.1, ⟨hx, hmeets⟩, rfl⟩⟩

theorem Settles.real_iff_y (h : Settles obj1 obj2 deltaTime)
    (hr : ReportsY obj1 obj2 deltaTime 0 τ) :
    RealContact obj1 obj2 deltaTime (yContact obj1 deltaTime τ) ↔
      MeetsY (partWay obj1 deltaTime τ) (partWay obj2 deltaTime τ) := by
  have hmeets := (h.reportsY hr τ).1.2
  exact ⟨fun hreal => hreal.touch.2, fun hy => ⟨hr.1.1.1.1, ⟨hmeets, hy⟩, rfl⟩⟩

section Order
variable [IsStrictOrderedRing F]

theorem candidateX_arrives (h : FirstX obj1 obj2 deltaTime τ) (hv : obj2.velocity.y ≠ 0)
    (hdt : 0 < deltaTime) (hsize : 0 ≤ obj1.size.y + obj2.size.y) :
    ∃ t, CandidateX obj1 obj2 deltaTime t τ := by
  have hk : obj2.velocity.y * (deltaTime : F) ≠ 0 := mul_ne_zero hv (by exact_mod_cast hdt.ne')
  obtain ⟨t, ht⟩ := moving_arrives hk (div_nonneg hsize zero_le_two)
  exact ⟨t, h, meetsY_partWay.mpr ht⟩

theorem candidateY_arrives (h : FirstY obj1 obj2 deltaTime τ) (hv : obj2.velocity.x ≠ 0)
    (hdt : 0 < deltaTime) (hsize : 0 ≤ obj1.size.x + obj2.size.x) :
    ∃ t, CandidateY obj1 obj2 deltaTime t τ := by
  obtain ⟨t, ht⟩ := candidateX_arrives (firstY_swapAxes.mp h) hv hdt hsize
  exact ⟨t, candidateY_swapAxes.mpr ht⟩

variable (obj1) in
/-- From some time on a second box that moves vertically makes no vertical face a candidate. -/
theorem candidateX_departs (hv : obj2.velocity.y ≠ 0) (hdt : 0 < deltaTime) :
    ∃ B, ∀ t, B < t → ∀ τ, ¬ CandidateX obj1 obj2 deltaTime t τ := by
  have hk : obj2.velocity.y * (deltaTime : F) ≠ 0 := mul_ne_zero hv (by exact_mod_cast hdt.ne')
  by_cases hfirst : ∃ τ, FirstX obj1 obj2 deltaTime τ
  · obtain ⟨τ, hτ⟩ := hfirst
    obtain ⟨B, hB⟩ := moving_departs (d := obj2.pos.y - (partWay obj1 deltaTime τ).pos.y)
      (h := ((partWay obj1 deltaTime τ).size.y + obj2.size.y) / 2) hk
    refine ⟨B, fun t ht τ' hτ' => hB t ht ?_⟩
    rw [IsLeast.unique hτ hτ'.1]
    exact meetsY_partWay.mp hτ'.2
  · exact ⟨0, fun _ _ τ hτ => hfirst ⟨τ, hτ.1⟩⟩

variable (obj1) in
theorem candidateY_departs (hv : obj2.velocity.x ≠ 0) (hdt : 0 < deltaTime) :
    ∃ B, ∀ t, B < t → ∀ τ, ¬ CandidateY obj1 obj2 deltaTime t τ := by
  have hswapped : obj2.swapAxes.velocity.y ≠ 0 := hv
  obtain ⟨B, hB⟩ := candidateX_departs obj1.swapAxes hswapped hdt
  exact ⟨B, fun t ht τ hτ => hB t ht τ (candidateY_swapAxes.mp hτ)⟩

theorem Settles.answerAt_eq (h : Settles obj1 obj2 deltaTime) (hdt : 0 < deltaTime) (t t' : F) :
    answerAt obj1 obj2 deltaTime t = answerAt obj1 obj2 deltaTime t' := by
  rcases reports_cases obj1 obj2 deltaTime t with ⟨τ, hτ⟩ | ⟨τ, hτ⟩ | ⟨hx, hy⟩
  · rw [hτ.answer hdt, (h.reportsX hτ t').answer hdt]
  · rw [hτ.answer hdt, (h.reportsY hτ t').answer hdt]
  · rcases reports_cases obj1 obj2 deltaTime t' with ⟨τ, hτ⟩ | ⟨τ, hτ⟩ | ⟨hx', hy'⟩
    · exact absurd (h.reportsX hτ t).1 (hx τ)
    · exact absurd (h.reportsY hτ t).1 (hy τ)
    · rw [answerAt_eq_none hdt hx hy, answerAt_eq_none hdt hx' hy']

omit [IsStrictOrderedRing F] [FloorRing F] in
theorem xContact_ne_yContact [IsStrictOrderedRing F] :
    xContact obj1 deltaTime τ ≠ yContact obj1 deltaTime t := by
  intro h
  have hnormal : (-dirOf obj1.velocity.x : F) = 0 := congrArg (fun c => c.normal.x) h
  exact dirOf_ne_zero _ (neg_eq_zero.mp hnormal)

theorem CandidateX.answerAt_ne_none (h : CandidateX obj1 obj2 deltaTime t τ)
    (hdt : 0 < deltaTime) : answerAt obj1 obj2 deltaTime t ≠ none := by
  rcases reports_cases obj1 obj2 deltaTime t with ⟨τ', hτ'⟩ | ⟨τ', hτ'⟩ | ⟨hx, -⟩
  · rw [hτ'.answer hdt]
    exact Option.some_ne_none _
  · rw [hτ'.answer hdt]
    exact Option.some_ne_none _
  · exact absurd h (hx τ)

theorem CandidateY.answerAt_ne_none (h : CandidateY obj1 obj2 deltaTime t τ)
    (hdt : 0 < deltaTime) : answerAt obj1 obj2 deltaTime t ≠ none := by
  rcases reports_cases obj1 obj2 deltaTime t with ⟨τ', hτ'⟩ | ⟨τ', hτ'⟩ | ⟨-, hy⟩
  · rw [hτ'.answer hdt]
    exact Option.some_ne_none _
  · rw [hτ'.answer hdt]
    exact Option.some_ne_none _
  · exact absurd h (hy τ)

/-- A second box that moves in both directions is far from both faces at some time. -/
theorem exists_answerAt_eq_none (hdt : 0 < deltaTime) (hu : obj2.velocity.x ≠ 0)
    (hw : obj2.velocity.y ≠ 0) : ∃ t, answerAt obj1 obj2 deltaTime t = none := by
  obtain ⟨B, hB⟩ := candidateX_departs obj1 hw hdt
  obtain ⟨B', hB'⟩ := candidateY_departs obj1 hu hdt
  have hfar := lt_add_one (max B B')
  exact ⟨max B B' + 1, answerAt_eq_none hdt (hB _ ((le_max_left B B').trans_lt hfar))
    (hB' _ ((le_max_right B B').trans_lt hfar))⟩

/-- Where every content of `*coll_info` leaves a contact, the second box moves on one axis at
most. -/
theorem still_axis_of_answers (hdt : 0 < deltaTime)
    (hsome : ∀ t, answerAt obj1 obj2 deltaTime t ≠ none) :
    obj2.velocity.x = 0 ∨ obj2.velocity.y = 0 := by
  by_contra hmoves
  obtain ⟨hu, hw⟩ := not_or.mp hmoves
  obtain ⟨t, ht⟩ := exists_answerAt_eq_none hdt hu hw
  exact hsome t ht

/-- If the answer is always the same, a horizontal face is reported before a vertical one across
which the second box moves: once that box is far away, no vertical face is a candidate. -/
theorem candidateY_of_same (hdt : 0 < deltaTime) (hsize : 0 ≤ obj1.size.y + obj2.size.y)
    (hsame : ∀ t t', answerAt obj1 obj2 deltaTime t = answerAt obj1 obj2 deltaTime t')
    (hfirst : FirstX obj1 obj2 deltaTime τ) (hw : obj2.velocity.y ≠ 0) :
    obj2.velocity.x = 0 ∧ ∃ τ' < τ, CandidateY obj1 obj2 deltaTime 0 τ' := by
  obtain ⟨near, hnear⟩ := candidateX_arrives hfirst hw hdt hsize
  obtain ⟨B, hB⟩ := candidateX_departs obj1 hw hdt
  have hsome (t : F) : answerAt obj1 obj2 deltaTime t ≠ none := by
    rw [hsame t near]
    exact hnear.answerAt_ne_none hdt
  have hu : obj2.velocity.x = 0 := (still_axis_of_answers hdt hsome).resolve_right hw
  refine ⟨hu, ?_⟩
  have hfar := hB (B + 1) (lt_add_one B)
  rcases reports_cases obj1 obj2 deltaTime (B + 1) with ⟨τ', hτ'⟩ | ⟨τ', hτ'⟩ | ⟨hx, hy⟩
  · exact absurd hτ'.1 (hfar τ')
  · rcases reports_cases obj1 obj2 deltaTime near with ⟨σ, hσ⟩ | ⟨σ, hσ⟩ | ⟨hx, -⟩
    · have heq := hsame near (B + 1)
      rw [hσ.answer hdt, hτ'.answer hdt, Option.some.injEq] at heq
      exact absurd heq xContact_ne_yContact
    · exact ⟨σ, hσ.2 τ hnear, hσ.1.of_still hu 0⟩
    · exact absurd hnear (hx τ)
  · exact absurd (answerAt_eq_none hdt hx hy) (hsome _)

theorem candidateX_of_same (hdt : 0 < deltaTime) (hsize : 0 ≤ obj1.size.x + obj2.size.x)
    (hsame : ∀ t t', answerAt obj1 obj2 deltaTime t = answerAt obj1 obj2 deltaTime t')
    (hfirst : FirstY obj1 obj2 deltaTime τ) (hu : obj2.velocity.x ≠ 0) :
    obj2.velocity.y = 0 ∧ ∃ τ' ≤ τ, CandidateX obj1 obj2 deltaTime 0 τ' := by
  obtain ⟨near, hnear⟩ := candidateY_arrives hfirst hu hdt hsize
  obtain ⟨B, hB⟩ := candidateY_departs obj1 hu hdt
  have hsome (t : F) : answerAt obj1 obj2 deltaTime t ≠ none := by
    rw [hsame t near]
    exact hnear.answerAt_ne_none hdt
  have hw : obj2.velocity.y = 0 := (still_axis_of_answers hdt hsome).resolve_left hu
  refine ⟨hw, ?_⟩
  have hfar := hB (B + 1) (lt_add_one B)
  rcases reports_cases obj1 obj2 deltaTime (B + 1) with ⟨τ', hτ'⟩ | ⟨τ', hτ'⟩ | ⟨hx, hy⟩
  · rcases reports_cases obj1 obj2 deltaTime near with ⟨σ, hσ⟩ | ⟨σ, hσ⟩ | ⟨-, hy⟩
    · exact ⟨σ, hσ.2 τ hnear, hσ.1.of_still hw 0⟩
    · have heq := hsame near (B + 1)
      rw [hσ.answer hdt, hτ'.answer hdt, Option.some.injEq] at heq
      exact absurd heq.symm xContact_ne_yContact
    · exact absurd hnear (hy τ)
  · exact absurd hτ'.1 (hfar τ')
  · exact absurd (answerAt_eq_none hdt hx hy) (hsome _)

theorem same_iff_settles (hdt : 0 < deltaTime) (hsize : 0 ≤ obj1.size.x + obj2.size.x ∧
    0 ≤ obj1.size.y + obj2.size.y) :
    (∀ t t', answerAt obj1 obj2 deltaTime t = answerAt obj1 obj2 deltaTime t') ↔
      Settles obj1 obj2 deltaTime :=
  ⟨fun hsame => ⟨fun _ => candidateY_of_same hdt hsize.2 hsame,
    fun _ => candidateX_of_same hdt hsize.1 hsame⟩, fun h => h.answerAt_eq hdt⟩

/-- `AABB_collide` reports real contacts, and the same for all contents of `*coll_info`, exactly
if the motion of the second box cannot change what is found and the face found is on it. -/
theorem reports_real_iff (hdt : 0 < deltaTime) (hsize1 : 0 ≤ obj1.size.x ∧ 0 ≤ obj1.size.y)
    (hsize2 : 0 ≤ obj2.size.x ∧ 0 ≤ obj2.size.y) :
    ReportsReal obj1 obj2 deltaTime ↔ Settles obj1 obj2 deltaTime ∧ OnFace obj1 obj2 deltaTime := by
  have hsizes : 0 ≤ obj1.size.x + obj2.size.x ∧ 0 ≤ obj1.size.y + obj2.size.y :=
    ⟨add_nonneg hsize1.1 hsize2.1, add_nonneg hsize1.2 hsize2.2⟩
  constructor
  · intro h
    have hs : Settles obj1 obj2 deltaTime := by
      apply (same_iff_settles hdt hsizes).mp
      intro t t'
      have heq := h.same ⟨t, .zero, .zero⟩ ⟨t', .zero, .zero⟩
      rwa [answer_aabbCollide, answer_aabbCollide] at heq
    refine ⟨hs, ⟨fun τ hτ => (hs.real_iff_x hτ).mp (h.real .zero _ ?_),
      fun τ hτ => (hs.real_iff_y hτ).mp (h.real .zero _ ?_)⟩⟩
    · rw [answer_aabbCollide]
      exact hτ.answer hdt
    · rw [answer_aabbCollide]
      exact hτ.answer hdt
  · rintro ⟨hs, hface⟩
    refine ⟨?_, ?_⟩
    · intro c r hr
      rw [answer_aabbCollide, hs.answerAt_eq hdt c.toi 0] at hr
      rcases reports_cases obj1 obj2 deltaTime 0 with ⟨τ, hτ⟩ | ⟨τ, hτ⟩ | ⟨hx, hy⟩
      · rw [hτ.answer hdt, Option.some.injEq] at hr
        rw [← hr]
        exact (hs.real_iff_x hτ).mpr (hface.x τ hτ)
      · rw [hτ.answer hdt, Option.some.injEq] at hr
        rw [← hr]
        exact (hs.real_iff_y hτ).mpr (hface.y τ hτ)
      · rw [answerAt_eq_none hdt hx hy] at hr
        cases hr
    · intro c c'
      rw [answer_aabbCollide, answer_aabbCollide, hs.answerAt_eq hdt c.toi c'.toi]

end Order
end Real

/-- A ball on its way to the right paddle, at the height of the lower edge of it. -/
def edgeBall : GameObj ℚ := ⟨1 / 20, ⟨464, 261 / 2⟩, ⟨1 / 2, 0⟩, ⟨10, 10⟩⟩

def paddleMoving (velocityY : ℚ) : GameObj ℚ := ⟨1 / 2, ⟨475, 160⟩, ⟨0, velocityY⟩, ⟨10, 50⟩⟩

theorem reports_real_paddleAtRest : ReportsReal edgeBall (paddleMoving 0) 16 := by
  refine (reports_real_iff (by decide) (by decide +kernel) (by decide +kernel)).mpr ⟨⟨?_, ?_⟩, ?_, ?_⟩
  · intro τ _ hw
    exact absurd rfl hw
  · intro τ _ hu
    exact absurd rfl hu
  · intro τ hτ
    obtain ⟨-, -, x, hx, hreach⟩ := hτ.1.1.1
    have hfaces : xFaces (paddleMoving 0) = [470, 480] := by decide +kernel
    have hdir : dirOf edgeBall.velocity.x = 1 := by decide +kernel
    rw [hfaces, List.mem_pair] at hx
    rw [contactX, hdir] at hreach
    rw [meetsX_iff, hreach]
    simp only [partWay_pos, partWay_size, paddleMoving, edgeBall]
    rcases hx with rfl | rfl <;> norm_num
  · intro τ hτ
    exact absurd rfl hτ.1.1.1.2.1

/-- A paddle that rises out of the way is reported, and not for all contents of `*coll_info`. -/
theorem reports_real_paddleRising :
    ¬ Touch edgeBall (paddleMoving (1 / 2)) ∧
      (∃ r, answer (aabbCollide edgeBall (paddleMoving (1 / 2)) 16 .zero) = some r ∧
        ¬ Touch (partWay edgeBall 16 r.toi) (partWay (paddleMoving (1 / 2)) 16 r.toi)) ∧
      answer (aabbCollide edgeBall (paddleMoving (1 / 2)) 16 ⟨1 / 8, .zero, .zero⟩) = none ∧
      ¬ ReportsReal edgeBall (paddleMoving (1 / 2)) 16 := by
  have hanswer : answer (aabbCollide edgeBall (paddleMoving (1 / 2)) 16 .zero) =
      some ⟨1 / 8, ⟨-1, 0⟩, ⟨465, 261 / 2⟩⟩ := by decide +kernel
  have hpast : ¬ Touch (partWay edgeBall 16 (1 / 8)) (partWay (paddleMoving (1 / 2)) 16 (1 / 8)) := by
    decide +kernel
  refine ⟨by decide +kernel, ⟨_, hanswer, hpast⟩, by decide +kernel, ?_⟩
  intro h
  exact hpast (h.real _ _ hanswer).touch

end CPong
