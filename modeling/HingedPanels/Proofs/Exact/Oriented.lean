import HingedPanels.Proofs.Exact.Spread
import HingedPanels.Window

namespace HingedPanels

theorem Edge.corner_cases (e : Edge) (i : Fin 4) : i = e.first ∨ i = e.second ∨ i = e.third ∨ i = e.first + 3 := by
  cases e <;> decide +revert

section Exact

variable [Quantities]

namespace Vec3

variable (a b v : Vec3 ℝ) {r : ℝ}

theorem mul_cross (r : ℝ) : (v * r).cross a = v.cross a * r := by
  simp only [cross, mul_def, mk.injEq]
  refine ⟨?_, ?_, ?_⟩ <;> ring

theorem length_mul (nonneg : 0 ≤ r) : (v * r).length = v.length * r := by
  rw [Vec3.length, mul_dot, dot_mul, ← mul_assoc, mul_comm]
  exact (Real.sqrt_mul v.dot_self_nonneg _).trans (congrArg _ (Real.sqrt_mul_self nonneg))

theorem mul_div_length (positive : 0 < r) : v * r / (v * r).length = v / v.length := by
  rw [length_mul v positive.le, div_def, div_def, mul_mul, mul_inv, mul_left_comm, mul_inv_cancel₀ positive.ne', mul_one]

end Vec3

namespace Quad

variable {q : Quad ℝ} {e : Edge} {h : Hinge ℝ}

/-- The directions of a hinge are unit vectors that are square to each other. The first leads along the edge, the
third out of the plane of the edge and its third corner, and the second away from that corner. -/
structure Oriented (q : Quad ℝ) (e : Edge) (h : Hinge ℝ) : Prop where
  anchor_eq : h.anchor = q.corner e.first
  along_along : h.along.dot h.along = 1
  outward_outward : h.outward.dot h.outward = 1
  upward_upward : h.upward.dot h.upward = 1
  along_outward : h.along.dot h.outward = 0
  outward_upward : h.outward.dot h.upward = 0
  upward_along : h.upward.dot h.along = 0
  run_eq : ∃ length : ℝ, 0 < length ∧ q.corner e.second - h.anchor = h.along * length
  run_upward : (q.corner e.second - h.anchor).dot h.upward = 0
  third_upward : (q.corner e.third - h.anchor).dot h.upward = 0
  third_outward : (q.corner e.third - h.anchor).dot h.outward < 0

theorem Frames.oriented (frames : q.Frames e h) : q.Oriented e h := by
  have frame := frames.orthonormal
  obtain ⟨flat, inward⟩ := frames.third_shares
  constructor
  case anchor_eq => exact frames.anchor_eq
  case along_along => exact frame.along_along
  case outward_outward => exact frame.outward_outward
  case upward_upward => exact frame.upward_upward
  case along_outward => exact frame.along_outward
  case outward_upward => rw [Vec3.dot_comm, frame.upward_outward]
  case upward_along => rw [Vec3.dot_comm, frame.along_upward]
  case run_eq => exact ⟨_, pos_of_isSound frames.sound_run, frames.second_sub_anchor⟩
  case run_upward => rw [frames.second_sub_anchor, Vec3.mul_dot, frame.along_upward, mul_zero]
  case third_upward => exact flat
  case third_outward =>
    rw [inward]
    exact neg_neg_of_pos (pos_of_isSound frames.sound_side)

section Parallelogram

variable (o u v : Vec3 ℝ)

theorem ofAxes_last (e : Edge) : (ofAxes o u v).corner (e.first + 3) - (ofAxes o u v).corner e.first =
    (ofAxes o u v).corner e.third - (ofAxes o u v).corner e.second := by
  cases e
  all_goals
    simp only [ofAxes, corner, Edge.first, Edge.second, Edge.third, Edge.index, Fin.reduceAdd, Vec3.add_def,
      Vec3.sub_def, Vec3.mk.injEq]
    refine ⟨?_, ?_, ?_⟩ <;> ring

theorem ofAxes_cross (e : Edge) : ((ofAxes o u v).corner e.second - (ofAxes o u v).corner e.first).cross
    ((ofAxes o u v).corner e.third - (ofAxes o u v).corner e.first) = u.cross v := by
  cases e
  all_goals
    simp only [ofAxes, corner, Edge.first, Edge.second, Edge.third, Edge.index, Fin.reduceAdd, Vec3.cross,
      Vec3.add_def, Vec3.sub_def, Vec3.mk.injEq]
    refine ⟨?_, ?_, ?_⟩ <;> ring

theorem normal_ofAxes : (ofAxes o u v).normal =
    if (u.cross v).length < Quantities.tolerance then 0 else u.cross v / (u.cross v).length := by
  have first : (ofAxes o u v).c1 - (ofAxes o u v).c0 = u := by
    simp [ofAxes, Vec3.add_def, Vec3.sub_def]
  have last : (ofAxes o u v).c3 - (ofAxes o u v).c0 = v := by
    simp [ofAxes, Vec3.add_def, Vec3.sub_def]
  unfold normal
  rw [first, last]
  rfl

variable {o u v}

theorem normal_ne_zero (wide : Quantities.tolerance ≤ (u.cross v).length) : (ofAxes o u v).normal ≠ 0 := by
  rw [normal_ofAxes, if_neg (not_lt.mpr wide)]
  intro none
  have unit := Vec3.div_length_dot_self (Quantities.tolerance_pos.trans_le wide)
  rw [none] at unit
  change (0 * 0 + 0 * 0 + 0 * 0 : ℝ) = 1 at unit
  norm_num at unit

theorem Frames.upward_eq_normal (frames : (ofAxes o u v).Frames e h) (spans : (ofAxes o u v).normal ≠ 0) :
    h.upward = (ofAxes o u v).normal := by
  have positive := pos_of_isSound frames.sound_run
  have side : h.along.cross ((ofAxes o u v).corner e.third - h.anchor) =
      u.cross v * ((ofAxes o u v).corner e.second - h.anchor).length⁻¹ := by
    rw [frames.along_eq, Vec3.div_def, Vec3.mul_cross, frames.anchor_eq, ofAxes_cross]
  rw [normal_ofAxes] at spans ⊢
  split at spans
  case isTrue => exact absurd rfl spans
  case isFalse wide =>
    rw [if_neg wide, frames.upward_eq, side]
    exact Vec3.mul_div_length _ (inv_pos.mpr positive)

theorem Frames.off_shares (frames : (ofAxes o u v).Frames e h) {i : Fin 4} (off : i ≠ e.first ∧ i ≠ e.second) :
    ((ofAxes o u v).corner i - h.anchor).dot h.upward = 0 ∧
      ((ofAxes o u v).corner i - h.anchor).dot h.outward < 0 := by
  have oriented := frames.oriented
  rcases e.corner_cases i with first | second | rfl | rfl
  · exact absurd first off.1
  · exact absurd second off.2
  · exact ⟨oriented.third_upward, oriented.third_outward⟩
  · have parallel : (ofAxes o u v).corner (e.first + 3) - h.anchor =
        (ofAxes o u v).corner e.third - h.anchor - ((ofAxes o u v).corner e.second - h.anchor) := by
      rw [Vec3.sub_sub_sub, ← ofAxes_last, frames.anchor_eq]
    have run_outward : ((ofAxes o u v).corner e.second - h.anchor).dot h.outward = 0 := by
      rw [frames.second_sub_anchor, Vec3.mul_dot, oriented.along_outward, mul_zero]
    have share (w : Vec3 ℝ) : ((ofAxes o u v).corner (e.first + 3) - h.anchor).dot w =
        ((ofAxes o u v).corner e.third - h.anchor).dot w - ((ofAxes o u v).corner e.second - h.anchor).dot w := by
      rw [parallel]
      exact Vec3.sub_dot _ _ w
    rw [share, share, oriented.third_upward, oriented.run_upward, run_outward, sub_zero, sub_zero]
    exact ⟨rfl, oriented.third_outward⟩

theorem Frames.flat (frames : (ofAxes o u v).Frames e h) (i : Fin 4) :
    ((ofAxes o u v).corner i - h.anchor).dot h.upward = 0 := by
  by_cases first : i = e.first
  · rw [first, frames.anchor_eq]
    simp [Vec3.sub_def, Vec3.dot]
  · by_cases second : i = e.second
    · rw [second]
      exact frames.oriented.run_upward
    · exact (frames.off_shares ⟨first, second⟩).1

theorem Frames.turn_rise (frames : (ofAxes o u v).Frames e h) (angle : ℝ) {i : Fin 4}
    (off : i ≠ e.first ∧ i ≠ e.second) (j : Fin 4) :
    ((h.turn (ofAxes o u v) angle).corner i - (ofAxes o u v).corner j).dot h.upward =
      -((ofAxes o u v).corner i - h.anchor).dot h.outward * Real.sin angle := by
  obtain ⟨_, _, up⟩ := frames.orthonormal.turn_shares angle ((ofAxes o u v).corner i)
  rw [← Vec3.sub_sub_sub _ _ h.anchor, Vec3.sub_dot, frames.flat j, Hinge.turn, corner_map, up,
    (frames.off_shares off).1]
  ring

end Parallelogram

/-- The quad lies in a plane square to `n`. Turned to the front by the angle, the corners off the edge lie on the
side of `n`, and turned to the back on the other side. -/
structure Leaves (q : Quad ℝ) (e : Edge) (n : Vec3 ℝ) (angle : ℝ) : Prop where
  flat : ∀ i j, (q.corner i - q.corner j).dot n = 0
  turns_eq : Face.front.restTurn angle = angle ∧ Face.back.restTurn angle = -angle
  front : ∃ r, q.turnAbout e angle = .ok r ∧ ∀ i j, i ≠ e.first ∧ i ≠ e.second → 0 < (r.corner i - q.corner j).dot n
  back : ∃ r, q.turnAbout e (-angle) = .ok r ∧ ∀ i j, i ≠ e.first ∧ i ≠ e.second → (r.corner i - q.corner j).dot n < 0

theorem Frames.leaves {o u v : Vec3 ℝ} (frames : (ofAxes o u v).Frames e h) {angle : ℝ} (positive : 0 < angle)
    (short : angle < Real.pi) : (ofAxes o u v).Leaves e h.upward angle := by
  have rises := Real.sin_pos_of_pos_of_lt_pi positive short
  constructor
  case flat =>
    intro i j
    rw [← Vec3.sub_sub_sub _ _ h.anchor, Vec3.sub_dot, frames.flat i, frames.flat j, sub_zero]
  case turns_eq => exact ⟨neg_neg angle, rfl⟩
  case front =>
    refine ⟨_, frames.turnAbout_eq angle, fun i j off => ?_⟩
    rw [frames.turn_rise angle off]
    exact mul_pos (neg_pos_of_neg (frames.off_shares off).2) rises
  case back =>
    refine ⟨_, frames.turnAbout_eq (-angle), fun i j off => ?_⟩
    rw [frames.turn_rise (-angle) off, Real.sin_neg]
    exact mul_neg_of_pos_of_neg (neg_pos_of_neg (frames.off_shares off).2) (neg_neg_of_pos rises)

/-- How hinges are directed. On a parallelogram with a normal they all share that normal, and turning to the front
by less than a straight angle lifts the corners off any edge to its side, while turning to the back lowers them to
the other. -/
theorem hinge_oriented :
    (∀ (q : Quad ℝ) (e : Edge) (h : Hinge ℝ), q.hinge e = .ok h → q.Oriented e h) ∧
    ∀ o u v : Vec3 ℝ, (ofAxes o u v).normal ≠ 0 → ∀ (e : Edge) (h : Hinge ℝ), (ofAxes o u v).hinge e = .ok h →
      h.upward = (ofAxes o u v).normal ∧
      ∀ angle : ℝ, 0 < angle → angle < Real.pi → (ofAxes o u v).Leaves e h.upward angle := by
  constructor
  · intro q e h found
    exact (hinge_eq_ok_iff.mp found).oriented
  · intro o u v spans e h found
    have frames := hinge_eq_ok_iff.mp found
    exact ⟨frames.upward_eq_normal spans, fun angle positive short => frames.leaves positive short⟩

end Quad

end Exact

/-- A parallelogram without right angles, on its second edge. -/
theorem Quad.hinge_oriented_skewed :
    let _ := Quantities.radians
    let skewed : Quad ℝ := ofAxes ⟨0, 0, 0⟩ ⟨2, 0, 0⟩ ⟨1, 2, 2⟩
    skewed.normal ≠ 0 ∧ ∃ h, skewed.hinge .b = .ok h ∧ skewed.Oriented .b h ∧ h.upward = skewed.normal ∧
      skewed.Leaves .b h.upward 1 := by
  intro _ skewed
  have reaches {v : Vec3 ℝ} (one : 1 ≤ v.dot v) : Quantities.tolerance ≤ v.length :=
    tolerance_le_length Quantities.tolerance_radians_le_one one
  have run : skewed.corner Edge.b.second - skewed.corner Edge.b.first = ⟨1, 2, 2⟩ := by
    change (⟨0 + 2 + 1 - (0 + 2), 0 + 0 + 2 - (0 + 0), 0 + 0 + 2 - (0 + 0)⟩ : Vec3 ℝ) = _
    norm_num
  have off (t : ℝ) : skewed.corner Edge.b.third - skewed.onLine .b t = ⟨-1 - t, 2 - 2 * t, 2 - 2 * t⟩ := by
    change (⟨0 + 1, 0 + 2, 0 + 2⟩ : Vec3 ℝ) -
      ((⟨0 + 2, 0 + 0, 0 + 0⟩ : Vec3 ℝ) + (skewed.corner Edge.b.second - skewed.corner Edge.b.first) * t) = _
    rw [run]
    simp only [Vec3.add_def, Vec3.sub_def, Vec3.mul_def, Vec3.mk.injEq]
    refine ⟨?_, ?_, ?_⟩ <;> ring
  have spread : skewed.Spread .b := by
    constructor
    case long =>
      rw [run]
      exact reaches (by norm_num [Vec3.dot])
    case wide =>
      intro t
      rw [off]
      apply reaches
      have foot := mul_self_nonneg (9 * t - 7)
      change 1 ≤ (-1 - t) * (-1 - t) + (2 - 2 * t) * (2 - 2 * t) + (2 - 2 * t) * (2 - 2 * t)
      linarith
  have spans : skewed.normal ≠ 0 := by
    apply normal_ne_zero
    exact reaches (by norm_num [Vec3.cross, Vec3.dot])
  obtain ⟨h, frames⟩ := spread_iff.mp spread
  have found := hinge_eq_ok_iff.mpr frames
  obtain ⟨same, leaves⟩ := hinge_oriented.2 _ _ _ spans .b h found
  exact ⟨spans, h, found, hinge_oriented.1 skewed .b h found, same,
    leaves 1 one_pos (by linarith [Real.pi_gt_three])⟩

end HingedPanels
