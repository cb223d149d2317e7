import HingedPanels.Proofs.Hinge.Frames
import HingedPanels.Proofs.Single.Range

/-!
Sizes in single precision. A length that is finite bounds the coordinates, the directions of a frame are
short, and a turn in such a frame takes points near the hinge to finite points.
-/

namespace HingedPanels

open Single

namespace Vec3

theorem isFinite_iff (v : Vec3 Float32) :
    v.isFinite = true ↔ v.x.isFinite = true ∧ v.y.isFinite = true ∧ v.z.isFinite = true := by
  unfold Vec3.isFinite
  rw [Bool.and_eq_true, Bool.and_eq_true, and_assoc]
  rfl

structure Within (k : ℕ) (v : Vec3 Float32) : Prop where
  x : Single.Within k v.x
  y : Single.Within k v.y
  z : Single.Within k v.z

variable {a b v : Vec3 Float32} {r : Float32} {j k : ℕ}

theorem Within.isFinite (within : v.Within k) : v.isFinite = true :=
  v.isFinite_iff.mpr ⟨within.x.1, within.y.1, within.z.1⟩

theorem Within.mono (within : v.Within j) (wider : j ≤ k) : v.Within k :=
  ⟨within.x.mono wider, within.y.mono wider, within.z.mono wider⟩

theorem Within.scale (within : v.Within j) (within' : Single.Within k r) (range : j + k ≤ 127) :
    (v * r).Within (j + k) :=
  ⟨within.x.mul within' range, within.y.mul within' range, within.z.mul within' range⟩

theorem Within.dot (within : a.Within j) (within' : b.Within k) (range : j + k + 2 ≤ 127) :
    Single.Within (j + k + 2) (a.dot b) := by
  have x := within.x.mul within'.x (by omega)
  have y := within.y.mul within'.y (by omega)
  have z := within.z.mul within'.z (by omega)
  exact (x.add y (by omega)).add (z.mono (Nat.le_succ _)) range

theorem Within.cross (within : a.Within j) (within' : b.Within k) (range : j + k + 1 ≤ 127) :
    (a.cross b).Within (j + k + 1) where
  x := (within.y.mul within'.z (by omega)).sub (within.z.mul within'.y (by omega)) range
  y := (within.z.mul within'.x (by omega)).sub (within.x.mul within'.z (by omega)) range
  z := (within.x.mul within'.y (by omega)).sub (within.y.mul within'.x (by omega)) range

theorem finite_of_sub (finite : (a - b).isFinite = true) : a.isFinite = true ∧ b.isFinite = true := by
  rw [isFinite_iff] at finite ⊢
  rw [isFinite_iff]
  have x := Single.finite_of_sub finite.1
  have y := Single.finite_of_sub finite.2.1
  have z := Single.finite_of_sub finite.2.2
  exact ⟨⟨x.1, y.1, z.1⟩, x.2, y.2, z.2⟩

theorem finite_of_add (finite : (a + b).isFinite = true) : a.isFinite = true ∧ b.isFinite = true := by
  rw [isFinite_iff] at finite ⊢
  rw [isFinite_iff]
  have x := Single.finite_of_add finite.1
  have y := Single.finite_of_add finite.2.1
  have z := Single.finite_of_add finite.2.2
  exact ⟨⟨x.1, y.1, z.1⟩, x.2, y.2, z.2⟩

theorem finite_of_scale (finite : (v * r).isFinite = true) : v.isFinite = true := by
  rw [isFinite_iff] at finite ⊢
  exact ⟨(finite_of_mul finite.1).1, (finite_of_mul finite.2.1).1, (finite_of_mul finite.2.2).1⟩

theorem finite_add (finite : a.isFinite = true) (within : b.Within 102) : (a + b).isFinite = true := by
  rw [isFinite_iff] at finite ⊢
  exact ⟨finite_add_within finite.1 within.x, finite_add_within finite.2.1 within.y,
    finite_add_within finite.2.2 within.z⟩

theorem finite_of_cross (finite : (a.cross b).isFinite = true) : b.isFinite = true := by
  rw [isFinite_iff] at finite ⊢
  have x := Single.finite_of_sub finite.1
  have y := Single.finite_of_sub finite.2.1
  exact ⟨(finite_of_mul y.1).2, (finite_of_mul x.2).2, (finite_of_mul x.1).2⟩

structure Squares (v : Vec3 Float32) : Prop where
  x : (v.x * v.x).isFinite = true
  y : (v.y * v.y).isFinite = true
  z : (v.z * v.z).isFinite = true
  x_le : realOf (v.x * v.x) ≤ realOf (v.dot v)
  y_le : realOf (v.y * v.y) ≤ realOf (v.dot v)
  z_le : realOf (v.z * v.z) ≤ realOf (v.dot v)

theorem squares_of_length (finite : v.length.isFinite = true) : v.Squares := by
  obtain ⟨total, _⟩ := finite_of_sqrt finite
  obtain ⟨pair, z⟩ := Single.finite_of_add total
  obtain ⟨x, y⟩ := Single.finite_of_add pair
  have x_le := realOf_le_add pair (mul_self_realOf_nonneg y)
  have y_le := realOf_le_add' pair (mul_self_realOf_nonneg x)
  have pair_le := realOf_le_add total (mul_self_realOf_nonneg z)
  have pair_nonneg := (mul_self_realOf_nonneg x).trans x_le
  exact ⟨x, y, z, x_le.trans pair_le, y_le.trans pair_le, realOf_le_add' total pair_nonneg⟩

theorem within_of_length (finite : v.length.isFinite = true) : v.Within 64 :=
  have squares := squares_of_length finite
  ⟨within_of_mul_self squares.x, within_of_mul_self squares.y, within_of_mul_self squares.z⟩

theorem within_div_length (finite : v.length.isFinite = true) (positive : 0 < realOf v.length) :
    (v / v.length).Within 1 := by
  have squares := squares_of_length finite
  have part {x : Float32} (square : (x * x).isFinite = true) (contains : realOf (x * x) ≤ realOf (v.dot v)) :
      Single.Within 1 (x / v.length) := by
    refine Single.Within.of_nearest
      (valueOf_div (finite_of_mul square).1 finite positive.ne') ?_ (by norm_num)
    rw [abs_div, abs_of_pos positive, pow_one, div_le_iff₀ positive]
    exact abs_le_two_mul_sqrt finite positive square contains
  exact ⟨part squares.x squares.x_le, part squares.y squares.y_le, part squares.z squares.z_le⟩

theorem length_of_within (within : v.Within 4) : v.length.isFinite = true ∧ 0 ≤ realOf v.length := by
  have x := (within.x.mul within.x (by norm_num)).1
  have y := (within.y.mul within.y (by norm_num)).1
  have z := (within.z.mul within.z (by norm_num)).1
  have total := within.dot within (by norm_num)
  obtain ⟨pair, _⟩ := Single.finite_of_add total.1
  have nonneg := (mul_self_realOf_nonneg x).trans
    ((realOf_le_add pair (mul_self_realOf_nonneg y)).trans (realOf_le_add total.1 (mul_self_realOf_nonneg z)))
  obtain ⟨root, root_nonneg⟩ := total.sqrt nonneg (by norm_num)
  exact ⟨root.1, root_nonneg⟩

/-- The reciprocal of the length is finite, because roots are far above the least number. -/
theorem within_unit (finite : v.length.isFinite = true) (positive : 0 < realOf v.length) : v.unit.Within 2 := by
  have squares := squares_of_length finite
  have least := le_realOf_sqrt finite positive
  have most := (le_abs_self _).trans (abs_realOf_le finite)
  have low : (2 : ℝ) ^ Int.log 2 (realOf v.length) ≤ realOf v.length := by
    exact_mod_cast Int.zpow_log_le_self one_lt_two positive
  have high : realOf v.length < 2 ^ (Int.log 2 (realOf v.length) + 1) := by
    exact_mod_cast Int.lt_zpow_succ_log_self one_lt_two (realOf v.length)
  have bottom : -75 ≤ Int.log 2 (realOf v.length) :=
    (Int.zpow_le_iff_le_log one_lt_two positive).mp (by exact_mod_cast least)
  have top : Int.log 2 (realOf v.length) < 128 :=
    (Int.lt_zpow_iff_log_lt one_lt_two positive).mp (by norm_num; linarith)
  generalize Int.log 2 (realOf v.length) = m at low high bottom top
  have nears := valueOf_div (a := 1) rfl finite positive.ne'
  rw [realOf_one] at nears
  have exact_size : |1 / realOf v.length| ≤ 2 ^ (-m) := by
    rw [abs_of_pos (one_div_pos.mpr positive), zpow_neg, ← one_div]
    exact one_div_le_one_div_of_le (by positivity) low
  have size := abs_rounded_le (by omega) exact_size
  have reciprocal : (1 / v.length).isFinite = true := by
    refine finite_of_nearest nears (size.trans_lt ?_)
    calc
      (2 : ℝ) ^ (-m) ≤ 2 ^ (75 : ℤ) := zpow_le_zpow_right₀ one_le_two (by omega)
      _ < 2 ^ 128 := by norm_num
  rw [← (realOf_of_nearest nears reciprocal).1] at size
  have part {x : Float32} (square : (x * x).isFinite = true) (contains : realOf (x * x) ≤ realOf (v.dot v)) :
      Single.Within 2 (x * (1 / v.length)) := by
    refine Single.Within.of_nearest (valueOf_mul (finite_of_mul square).1 reciprocal) ?_ (by norm_num)
    have short : |realOf x| ≤ 2 * realOf v.length := abs_le_two_mul_sqrt finite positive square contains
    rw [abs_mul]
    calc
      |realOf x| * |realOf (1 / v.length)| ≤ (2 * 2 ^ (m + 1)) * 2 ^ (-m) :=
        mul_le_mul (short.trans (by linarith)) size (abs_nonneg _) (by positivity)
      _ = 2 ^ 2 := by
        rw [zpow_add_one₀ two_ne_zero, zpow_neg]
        field_simp
  exact ⟨part squares.x squares.x_le, part squares.y squares.y_le, part squares.z squares.z_le⟩

/-- A vector without length has no finite multiple by its reciprocal length. -/
theorem pos_length_of_unit (within : v.Within 4) (finite : v.unit.isFinite = true) : 0 < realOf v.length := by
  obtain ⟨length, nonneg⟩ := length_of_within within
  obtain ⟨_, reciprocal⟩ := finite_of_mul (v.unit.isFinite_iff.mp finite).1
  exact nonneg.lt_of_ne' (nonzero_of_div reciprocal length)

end Vec3

theorem IsSound.pos {length : Float32} (sound : IsSound length) : 0 < realOf length := by
  have tolerance : (0 : Float32) < Scalar.tolerance := by decide +kernel
  obtain ⟨_, number, above⟩ := lt_iff_valueOf.mp tolerance
  obtain ⟨_, _, below⟩ := le_iff_valueOf.mp ((not_lt_iff_le (number_of_finite sound.1) number).mp sound.2)
  rw [valueOf_zero] at above
  rw [valueOf_eq_realOf sound.1] at below
  exact EReal.coe_pos.mp (above.trans_le below)

/-- The trigonometric functions keep their bounds where the angle is finite. -/
def Trig.Bounded (trig : Trig Float32) : Prop :=
  ∀ angle : Float32, angle.isFinite = true →
    (-1 ≤ trig.sin angle ∧ trig.sin angle ≤ 1) ∧ (-1 ≤ trig.cos angle ∧ trig.cos angle ≤ 1)

namespace Hinge

structure Moderate (h : Hinge Float32) : Prop where
  anchor : h.anchor.isFinite = true
  along : h.along.Within 2
  outward : h.outward.Within 2
  upward : h.upward.Within 2

variable [trig : Trig Float32] {h : Hinge Float32} {angle : Float32} {p : Vec3 Float32}

theorem Moderate.finite_turnPoint (moderate : h.Moderate) (bounded : trig.Bounded) (finite : angle.isFinite = true)
    (near : (p - h.anchor).length.isFinite = true) : (h.turnPoint angle p).isFinite = true := by
  obtain ⟨⟨sin_above, sin_below⟩, cos_above, cos_below⟩ := bounded angle finite
  have sin := within_zero sin_above sin_below
  have cos := within_zero cos_above cos_below
  have rel := Vec3.within_of_length near
  have x := rel.dot moderate.along (by norm_num)
  have y := rel.dot moderate.outward (by norm_num)
  have z := rel.dot moderate.upward (by norm_num)
  have outward := (y.mul cos (by norm_num)).add (z.mul sin (by norm_num)) (by norm_num)
  have upward := (z.mul cos (by norm_num)).sub (y.mul sin (by norm_num)) (by norm_num)
  have first := Vec3.finite_add moderate.anchor ((moderate.along.scale x (by norm_num)).mono (by norm_num))
  have second := Vec3.finite_add first ((moderate.outward.scale outward (by norm_num)).mono (by norm_num))
  exact Vec3.finite_add second ((moderate.upward.scale upward (by norm_num)).mono (by norm_num))

theorem finite_outward_of_turnPoint (finite : (h.turnPoint angle p).isFinite = true) :
    h.outward.isFinite = true := by
  obtain ⟨earlier, _⟩ := Vec3.finite_of_add finite
  obtain ⟨_, share⟩ := Vec3.finite_of_add earlier
  exact Vec3.finite_of_scale share

end Hinge

namespace Quad.Frames

variable {q : Quad Float32} {e : Edge} {h : Hinge Float32}

/-- The corners that a hinge is made of are finite. The fourth is not looked at. -/
theorem finite_corners (frames : q.Frames e h) : (q.corner e.first).isFinite = true ∧
    (q.corner e.second).isFinite = true ∧ (q.corner e.third).isFinite = true := by
  have run := (Vec3.within_of_length frames.sound_run.1).isFinite
  have side := Vec3.finite_of_cross (Vec3.within_of_length frames.sound_side.1).isFinite
  obtain ⟨second, anchor⟩ := Vec3.finite_of_sub run
  obtain ⟨third, _⟩ := Vec3.finite_of_sub side
  exact ⟨frames.anchor_eq ▸ anchor, second, third⟩

theorem within_along (frames : q.Frames e h) : h.along.Within 1 := by
  rw [frames.along_eq]
  exact Vec3.within_div_length frames.sound_run.1 frames.sound_run.pos

theorem within_upward (frames : q.Frames e h) : h.upward.Within 1 := by
  rw [frames.upward_eq]
  exact Vec3.within_div_length frames.sound_side.1 frames.sound_side.pos

theorem within_cross (frames : q.Frames e h) : (h.along.cross h.upward).Within 4 :=
  (frames.within_along.cross frames.within_upward (by norm_num)).mono (by norm_num)

theorem moderate (frames : q.Frames e h) (spread : 0 < realOf (h.along.cross h.upward).length) : h.Moderate where
  anchor := frames.anchor_eq ▸ frames.finite_corners.1
  along := frames.within_along.mono (by norm_num)
  outward := by
    rw [frames.outward_eq]
    exact Vec3.within_unit (Vec3.length_of_within frames.within_cross).1 spread
  upward := frames.within_upward.mono (by norm_num)

theorem moderate_of_finite (frames : q.Frames e h) (finite : h.outward.isFinite = true) : h.Moderate := by
  rw [frames.outward_eq] at finite
  exact frames.moderate (Vec3.pos_length_of_unit frames.within_cross finite)

end Quad.Frames

end HingedPanels
